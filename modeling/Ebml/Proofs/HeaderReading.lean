import Ebml.Proofs.DocumentReading
import Ebml.Proofs.BlockDelivery
import Ebml.Proofs.SeekIndex
import Ebml.Proofs.Records

/-!
# Reading back a stream header

A stream header as the writer writes it reads back, whatever octets follow it: the reader stops
right after the track list, with every track entry read back, and leaves the decoder at the
first octet past the header. The writer's document is a record slot in all the encoder looks at;
it differs only in zero flags under tags that keep zero values, in the stop flag of the track
list, and in writing a list of track entries as one field per entry.
-/

namespace Ebml

namespace Marshal

variable {opts : MarshalOptions} {depth : Nat}

/-- The zero flag of a view matters only under a tag that leaves zero values out. -/
theorem field_withZero_of_keeps {tag : Tag} (homit : tag.omitEmpty = false) (v : View) (z : Bool)
    (o : Output) : field opts depth tag (v.withZero z) o = field opts depth tag v o := by
  cases v <;> simp only [View.withZero, field, homit, Bool.false_and, Bool.false_eq_true, if_false]

/-- Whether reading stops after a master is nothing to its writing. -/
theorem field_master_stop (tag : Tag) (stop : Bool) (fs : List (Tag × View)) (z : Bool)
    (o : Output) :
    field opts depth { tag with stop } (.master fs z) o = field opts depth tag (.master fs z) o := by
  unfold field
  rfl

/-- A master is written as its children are. -/
theorem field_master_congr {tag : Tag} {fs fs' : List (Tag × View)}
    (h : ∀ o, fields opts (depth + 1) fs o = fields opts (depth + 1) fs' o) (z : Bool)
    (o : Output) : field opts depth tag (.master fs z) o = field opts depth tag (.master fs' z) o := by
  unfold field
  simp only [h, View.zero]

theorem fields_singleton (tag : Tag) (v : View) (o : Output) :
    fields opts depth [(tag, v)] o = field opts depth tag v o := by
  unfold fields
  rcases field opts depth tag v o with ⟨o', _ | err⟩
  · unfold fields
    rfl
  · rfl

/-- An absent field writes nothing before the fields after it. -/
theorem fields_absent (tag : Tag) (z : Bool) (rest : List (Tag × View)) (o : Output) :
    fields opts depth ((tag, .absent z) :: rest) o = fields opts depth rest o := by
  simp only [fields, field_absent]

/-- The items of a repeated field are written as fields under its tag, one after another. -/
theorem repeated_eq_fields (tag : Tag) :
    ∀ (items : List View) (o : Output),
      repeated opts depth tag items o = fields opts depth (items.map (tag, ·)) o
  | [], o => by simp only [repeated, List.map_nil, fields]
  | v :: vs, o => by
    simp only [repeated, List.map_cons, fields]
    rcases field opts depth tag v o with ⟨o', _ | err⟩
    · exact repeated_eq_fields tag vs o'
    · rfl

/-- Fields written as others are, one by one, are written as they are. -/
theorem fields_map_congr {α : Type} (f g : α → Tag × View)
    (h : ∀ a o, field opts depth (f a).1 (f a).2 o = field opts depth (g a).1 (g a).2 o) :
    ∀ (xs : List α) (o : Output), fields opts depth (xs.map f) o = fields opts depth (xs.map g) o
  | [], o => rfl
  | x :: xs, o => by
    simp only [List.map_cons, fields, h x o]
    rcases field opts depth (g x).1 (g x).2 o with ⟨o', _ | err⟩
    · exact fields_map_congr f g h xs o'
    · rfl

/-- A header for the unknown size is the identifier's octets, then the all-ones size at the
largest width allowed, which lies between one and eight octets. -/
theorem header_none_ok {e : Element} {h : Output} (hh : header opts e none {} = (h, none)) :
    1 ≤ opts.maxSizeLength ∧ opts.maxSizeLength ≤ 8 ∧
      h.bytes = e.idBytes ++ Vint.withMarker opts.maxSizeLength (Vint.allOnes opts.maxSizeLength) := by
  unfold header at hh
  split at hh
  · simp at hh
  · rename_i id hid
    have hid' : id = e.idBytes := by
      unfold Vint.encodeId at hid
      split at hid
      · cases hid
      · cases hid
        rfl
    cases hsz : Vint.encode none (some opts.maxSizeLength) opts.maxSizeLength with
    | error err => simp [hsz] at hh
    | ok sz =>
      simp only [hsz, Prod.mk.injEq] at hh
      simp only [Vint.encode, Option.getD_some] at hsz
      split at hsz
      · cases hsz
      · rename_i hwidth
        have h1 : 1 ≤ opts.maxSizeLength := by omega
        rw [Nat.max_eq_left h1, Except.ok.injEq] at hsz
        refine ⟨h1, by omega, ?_⟩
        rw [← hh.1, Output.bytes_emitEach, Output.bytes_emit, hid', ← hsz]
        rfl

end Marshal

/-- A header written for the unknown size reads as the element's header of unknown size, where
the reader allows the width the writer used. -/
theorem HeadOctets.of_header_none {dopts : DecodeOptions} {mopts : MarshalOptions} {e : Element}
    {h : Output} (hh : Marshal.header mopts e none {} = (h, none)) (hid : 4 ≤ dopts.maxIdLength)
    (hsize : min mopts.maxSizeLength 8 ≤ dopts.maxSizeLength) : HeadOctets dopts e none h.bytes := by
  obtain ⟨h1, h8, hb⟩ := Marshal.header_none_ok hh
  rw [hb]
  exact HeadOctets.of_unknown e hid h1 h8 (by omega)

namespace Slot

theorem viewItems_eq_map : ∀ xs : List Slot, viewItems xs = xs.map view
  | [] => rfl
  | x :: xs => by rw [viewItems, viewItems_eq_map xs, List.map_cons]

end Slot

namespace Matroska

/-! ## The header as a record -/

/-- Filling in the positions of an index keeps its identifiers. -/
theorem fillSeekHead_seekIds (h : SeekHead) (records : List Record) :
    (fillSeekHead h records).seeks.map (·.seekId) = h.seeks.map (·.seekId) := by
  unfold fillSeekHead
  split
  · rfl
  · simp only [List.map_map]
    congr 1
    funext s
    simp only [Function.comp_apply]
    split <;> rfl

/-- An index whose identifiers are within the allocation limit stores its data. -/
theorem SeekHead.storable {limit : Nat} (h : SeekHead) (hids : ∀ s ∈ h.seeks, s.seekId.length ≤ limit) :
    h.toSlot.AllScalars (Slot.Storable limit) := by
  simp only [SeekHead.toSlot, Slot.AllScalars, Slot.AllFieldScalars, and_true]
  rw [Slot.allItemScalars_iff]
  intro x hx
  obtain ⟨s, hs, rfl⟩ := List.mem_map.mp hx
  simpa [Seek.toSlot, Slot.AllScalars, Slot.AllFieldScalars, Slot.Storable] using hids s hs

/-- The segment of a stream header as a record: its index if it has one, its information and its
track list, under the tag that stops the reading. -/
def headerSegment (index : Option SeekHead) (info : Info) (entries : List TrackEntry) :
    List (Tag × Slot) :=
  [(.plain .seekHead, .option (SeekHead.toSlot {}) (index.map SeekHead.toSlot)),
    (.plain .info, info.toSlot), (trackListTag, (Tracks.mk entries).toSlot)]

/-- The segment of a stream header as the reader starts it is the header's segment cleared. -/
theorem clearedFields_headerSegment (index : Option SeekHead) (info : Info)
    (entries : List TrackEntry) :
    Slot.clearedFields (headerSegment index info entries) =
      [(.plain .seekHead, .option (SeekHead.toSlot {}) none), (.plain .info, Info.toSlot {}),
        (trackListTag, Tracks.toSlot {})] := rfl

/-- A track entry is written as the master of its fields. -/
theorem field_trackEntry (mopts : MarshalOptions) (depth : Nat) (t : TrackEntry) (o : Output) :
    Marshal.field mopts depth (.plain .trackEntry) t.toSlot.view o =
      Marshal.field mopts depth (.plain .trackEntry) (.master t.toSlot.document false) o :=
  Marshal.field_withZero_of_keeps rfl (.master t.toSlot.document false) _ o

/-- The segment of a stream header for track entries is written as the record of its index,
information and track list. -/
theorem fields_segmentFields (mopts : MarshalOptions) (index : Option SeekHead) (info : Info)
    (entries : List TrackEntry) (o : Output) :
    Marshal.fields mopts 1 (segmentFields index info (entries.map TrackDescription.ofEntry)) o =
      Marshal.fields mopts 1 (Slot.viewFields (headerSegment index info entries)) o := by
  -- the track list: one field per entry, as its list of entries is written
  have hentries : ∀ o, Marshal.fields mopts 2 ((entries.map TrackDescription.ofEntry).map
      fun t => (Tag.plain .trackEntry, View.master t.entry false)) o =
      Marshal.fields mopts 2 [(Tag.plain .trackEntry,
        (Slot.list (TrackEntry.toSlot {}) (entries.map TrackEntry.toSlot)).view)] o := by
    intro o
    rw [Marshal.fields_singleton, Slot.view, Marshal.field_repeated_of_keeps rfl,
      Marshal.repeated_eq_fields, Slot.viewItems_eq_map, List.map_map, List.map_map, List.map_map]
    exact Marshal.fields_map_congr _ _ (fun t o => (field_trackEntry mopts 2 t o).symm) entries o
  have htracks : ∀ o, Marshal.field mopts 1 (.plain .tracks)
      (.master ((entries.map TrackDescription.ofEntry).map
        fun t => (Tag.plain .trackEntry, View.master t.entry false))
        ((entries.map TrackDescription.ofEntry).map
          fun t => (Tag.plain .trackEntry, View.master t.entry false)).isEmpty) o =
      Marshal.field mopts 1 trackListTag (Tracks.mk entries).toSlot.view o := by
    intro o
    have hz : ∀ (fs : List (Tag × View)) (z : Bool), Marshal.field mopts 1 (.plain .tracks)
        (.master fs z) o = Marshal.field mopts 1 (.plain .tracks) (.master fs false) o :=
      fun fs z => Marshal.field_withZero_of_keeps rfl (.master fs false) z o
    rw [show trackListTag = { Tag.plain .tracks with stop := true } from rfl,
      Marshal.field_master_stop, Tracks.toSlot, Slot.view]
    exact (hz _ _).trans ((Marshal.field_master_congr hentries false o).trans (hz _ _).symm)
  cases index with
  | none =>
    simp only [segmentFields, headerSegment, Option.map_none, Slot.viewFields, Slot.view,
      List.nil_append, Marshal.fields_absent]
    simp only [Marshal.fields, htracks]
  | some idx =>
    simp only [segmentFields, headerSegment, Option.map_some, Slot.viewFields, Slot.view,
      List.singleton_append]
    simp only [Marshal.fields, htracks,
      Marshal.field_withZero_of_keeps (show (Tag.plain .seekHead).omitEmpty = false from rfl)]

end Matroska

end Ebml

namespace Ebml.Matroska

/-- A stream header that the sink took whole: the EBML header, the segment's header with the
unknown size, then the segment's fields, with an index, if any, that has one seek for the
information and one for the track list. -/
theorem writeHeader_parts {sink sink' : Sink} {tracks : List TrackDescription}
    {opts : WriterOptions} {n : Nat} (h : writeHeader sink tracks opts = (sink', .ok n)) :
    ∃ (index : Option SeekHead) (wE hS wS : Output),
      (∀ idx ∈ index, idx.seeks.map (·.seekId) = [Element.info.idBytes, Element.tracks.idBytes]) ∧
      Marshal.field opts.marshal 0 (.plain .ebml) opts.header.toSlot.view {} = (wE, none) ∧
      Marshal.header opts.marshal .segment none {} = (hS, none) ∧
      Marshal.fields opts.marshal 1 (segmentFields index opts.info tracks) {} = (wS, none) ∧
      sink'.written = sink.written ++ (wE.bytes ++ (hS.bytes ++ wS.bytes)) ∧
      n = (wE.bytes ++ (hS.bytes ++ wS.bytes)).length := by
  unfold writeHeader at h
  dsimp only at h
  split at h
  · cases h
  rename_i index hindex
  have hidx : ∀ idx ∈ index, idx.seeks.map (·.seekId) =
      [Element.info.idBytes, Element.tracks.idBytes] := by
    intro idx hmem
    cases hseek : opts.seekHead
    · simp only [hseek, Bool.false_eq_true, if_false, Except.ok.injEq] at hindex
      subst hindex
      cases hmem
    · simp only [hseek, if_true] at hindex
      rcases henc : Marshal.encode opts.marshal
          (headerDocument opts.header (segmentFields (some seekPlaceholder) opts.info tracks)) with
        err | ⟨bytes, records⟩
      · rw [henc] at hindex
        cases hindex
      · rw [henc] at hindex
        simp only [Except.map, Except.ok.injEq] at hindex
        subst hindex
        rw [Option.mem_some_iff] at hmem
        subst hmem
        rw [fillSeekHead_seekIds]
        rfl
  rcases hm : sink.marshal opts.marshal (headerDocument opts.header
      (segmentFields index opts.info tracks)) with ⟨s, _ | ⟨m, recs⟩⟩
  · rw [hm] at h
    cases h
  rw [hm] at h
  simp only [Except.map, Prod.mk.injEq, Except.ok.injEq] at h
  obtain ⟨rfl, rfl⟩ := h
  obtain ⟨o, hrun, hwritten, rfl⟩ := Sink.marshal_ok_length hm
  -- the document: the EBML header, then the segment streamed after its header
  obtain ⟨wE, rest, hE, hrest, rfl⟩ := Marshal.fields_cons_eq hrun
  obtain ⟨wSeg, nil, hSeg, hnil, rfl⟩ := Marshal.fields_cons_eq hrest
  obtain rfl : ({} : Output) = nil := (Prod.mk.inj hnil).1
  obtain ⟨hS, wS, hhS, hwS, rfl⟩ := Marshal.field_unknown_eq hSeg
  refine ⟨index, wE, hS, wS, hidx, hE, hhS, hwS, ?_, ?_⟩ <;>
    simp [hwritten, Output.bytes_append]

end Ebml.Matroska

namespace Ebml.Decoder

section Stopping

variable {opts : DecodeOptions} {mopts : MarshalOptions} (hid : 4 ≤ opts.maxIdLength)
  (hsize : min mopts.maxSizeLength 8 ≤ opts.maxSizeLength)
include hid hsize

/-- A record in a field whose tag stops the reading is read in one step, as any record is, and
the reading stops after it. -/
theorem readChildren_stopping_record {e : Element} {fs : List (Tag × Slot)} {depth : Nat}
    (hnodup : (fs.map (·.1.element)).Nodup)
    (hfields : ∀ f ∈ fs, FieldReads opts mopts (depth + 1) f.1 f.2) {z : Bool} {w : Output}
    (hw : Marshal.field mopts depth (Tag.plain e) (.master (Slot.viewFields fs) z) {} = (w, none))
    {gs : List (Tag × Slot)} {i : Nat} (hi : Slot.fieldIndex gs e = some i)
    (hg : gs[i]? = some ({ element := e, stop := true }, .record (Slot.clearedFields fs)))
    (fuel : Nat) (ext : Extent) (d : Decoder) (rest : Bytes) (hdepth : ext.depth = depth)
    (htop : ext.unknownTop = false) (hfuel : w.bytes.length < fuel)
    (hs : d.source.ahead = w.bytes ++ rest)
    (hfit : ∀ E ∈ ext.stop, d.source.position + w.bytes.length ≤ E) :
    ∃ recs, (readChildren opts Slot.target (fuel + 1) (.record gs) ext none).run d =
      ((.record (Slot.modifyField gs i fun _ => .record (Slot.restoredFields fs)), .ok .stopped),
        d.advance rest w.bytes.length recs) := by
  subst hdepth
  have hopen : Slot.Opens (.record (Slot.clearedFields fs)) (.record (Slot.clearedFields fs)) :=
    Or.inl ⟨rfl, rfl⟩
  obtain ⟨mid, hent, hclose⟩ := Slot.enter_of_opens hopen
  obtain ⟨hm, hdeep, inner, sz, hinner, hsz, hbytes⟩ := Marshal.field_master_ok hw
  have hpos := e.idBytes_length_pos
  have hszpos := Vint.length_encode_pos hsz
  rw [hbytes] at hs hfit hfuel ⊢
  simp only [List.length_append] at hfit hfuel ⊢
  have hhead := Header.read_encoded e hid hsz hsize
    (show d.source.ahead = e.idBytes ++ sz ++ (inner.bytes ++ rest) by rw [hs, List.append_assoc])
  obtain ⟨f, rfl⟩ : ∃ f, fuel = f + 1 := ⟨fuel - 1, by omega⟩
  let header : Record :=
    ⟨e, d.source.position, e.idBytes.length + sz.length, some inner.bytes.length⟩
  let d₁ := d.advance (inner.bytes ++ rest) (e.idBytes.length + sz.length) [header]
  obtain ⟨f', recs, hf', hrun⟩ := readChildren_fields opts mopts hfields [] []
    (by simpa using hnodup) hinner f
    ⟨some (d₁.source.position + inner.bytes.length), false, ext.depth + 1⟩ d₁ rest rfl rfl
    (by omega) rfl (fun E hE => by simp only [Option.mem_def, Option.some.injEq] at hE; omega)
  obtain ⟨f'', rfl⟩ : ∃ f'', f' = f'' + 1 := ⟨f' - 1, by omega⟩
  simp only [List.nil_append, List.append_nil] at hrun
  have hchild : (readMaster opts Slot.target (f + 1) (.record (Slot.clearedFields fs))
      ⟨some (d₁.source.position + inner.bytes.length), false, ext.depth + 1⟩).run d₁ =
      ((.record (Slot.restoredFields fs), .ok .exhausted),
        d₁.advance rest inner.bytes.length recs) := by
    rw [readMaster_succ opts Slot.target hdeep, hrun,
      readChildren_exhausted opts Slot.target rfl (by simp only [advance]; omega)]
  refine ⟨header :: recs, ?_⟩
  rw [readChildren_header opts Slot.target (start_of_fits hfit (by omega)) hhead,
    readElement_master_stop opts Slot.target rfl rfl (Nat.add_sub_cancel _ _)
      (overruns_of_fits (fun E hE => by have := hfit E hE; dsimp only; omega)) htop
      (Slot.target_select_record hi hg) hm (Slot.target_enter_record hi hg hent) hchild
      (Slot.target_finish _) rfl,
    Slot.target_close_record (by rw [Slot.fieldIndex_modifyField]; exact hi)]
  simp only [Slot.modifyField_modifyField, hclose, d₁, advance_advance, List.singleton_append,
    Nat.add_assoc]
  rfl


end Stopping

end Ebml.Decoder

namespace Ebml.Matroska

open Decoder

section Reading

variable {opts : DecodeOptions} {mopts : MarshalOptions} (hid : 4 ≤ opts.maxIdLength)
  (hsize : min mopts.maxSizeLength 8 ≤ opts.maxSizeLength)
include hid hsize

/-- The segment of a stream header, written after its header of unknown size, is read as its
record: the index, if any, and the information as fields, then the track list, after which the
reading stops. -/
theorem readMaster_headerSegment {limit : Nat} (hlimit : limit ≤ opts.allocationLimit)
    {index : Option SeekHead} {info : Info} {entries : List TrackEntry}
    (hidx : ∀ idx ∈ index, idx.toSlot.AllScalars (Slot.Storable limit))
    (hinfo : info.toSlot.AllScalars (Slot.Storable limit))
    (htracks : (Tracks.mk entries).toSlot.AllScalars (Slot.Storable limit)) {w : Output}
    (hw : Marshal.fields mopts 1 (Slot.viewFields (headerSegment index info entries)) {} =
      (w, none))
    (fuel : Nat) (hfuel : w.bytes.length + 3 < fuel) (d : Decoder) (rest : Bytes)
    (hs : d.source.ahead = w.bytes ++ rest) :
    ∃ recs, (readMaster opts Slot.target fuel
        (.record (Slot.clearedFields (headerSegment index info entries)))
        ⟨none, false, 1⟩).run d =
      ((.record (Slot.restoredFields (headerSegment index info entries)), .ok .stopped),
        d.advance rest w.bytes.length recs) := by
  obtain ⟨wSH, r₁, hSH, hr₁, rfl⟩ := Marshal.fields_cons_eq hw
  obtain ⟨wI, r₂, hI, hr₂, rfl⟩ := Marshal.fields_cons_eq hr₁
  obtain ⟨wT, nil, hT, hnil, rfl⟩ := Marshal.fields_cons_eq hr₂
  obtain rfl : ({} : Output) = nil := (Prod.mk.inj hnil).1
  simp only [Output.append_empty, Output.bytes_append, List.length_append] at hs hfuel ⊢
  -- the index and the information read back as fields
  let pre : List (Tag × Slot) :=
    [(.plain .seekHead, .option (SeekHead.toSlot {}) (index.map SeekHead.toSlot)),
      (.plain .info, info.toSlot)]
  have hpre : Marshal.fields mopts 1 (Slot.viewFields pre) {} =
      (wSH.append (wI.append {}), none) :=
    Marshal.fields_cons_of hSH
      (Marshal.fields_cons_of hI (show Marshal.fields mopts 1 [] {} = ({}, none) from rfl))
  have hsh : (Slot.option (SeekHead.toSlot {}) (index.map SeekHead.toSlot)).AllScalars
      (Slot.Storable limit) := by
    cases index with
    | none => trivial
    | some idx => exact hidx idx rfl
  have hreads : ∀ f ∈ pre, FieldReads opts mopts 1 f.1 f.2 := by
    intro f hf
    simp only [pre, List.mem_cons, List.not_mem_nil, or_false] at hf
    rcases hf with rfl | rfl
    · exact (restorable_reads hid hsize hlimit (Slot.restorable_optionMap
        SeekHead.restorable (fun _ => rfl) (fun _ => rfl) hsh)).1 1
    · exact (restorable_reads hid hsize hlimit (Info.restorable info hinfo)).1 1
  obtain ⟨f₀, rfl⟩ : ∃ f₀, fuel = f₀ + 1 := ⟨fuel - 1, by omega⟩
  have hnodup : (([] ++ pre).map fun f : Tag × Slot => f.1.element).Nodup := by
    simp only [pre, List.nil_append, List.map_cons, List.map_nil]
    decide
  obtain ⟨f₁, recs₁, hf₁, hrun₁⟩ := readChildren_fields opts mopts hreads []
    [(trackListTag, Tracks.toSlot {})] hnodup hpre f₀ ⟨none, false, 1⟩ d (wT.bytes ++ rest) rfl rfl
    (by simp only [Output.append_empty, Output.bytes_append, List.length_append]; omega)
    (by simp only [hs, Output.append_empty, Output.bytes_append, List.append_assoc])
    (fun E hE => by cases hE)
  simp only [Output.append_empty, Output.bytes_append, List.length_append, List.nil_append]
    at hf₁ hrun₁
  -- then the track list, whose tag stops the reading
  have htrackFields : ∀ f ∈ [(Tag.plain .trackEntry,
      Slot.list (TrackEntry.toSlot {}) (entries.map TrackEntry.toSlot))],
      FieldReads opts mopts 2 f.1 f.2 := by
    intro f hf
    rw [List.mem_singleton] at hf
    subst hf
    have hsc : (Slot.list (TrackEntry.toSlot {}) (entries.map TrackEntry.toSlot)).AllScalars
        (Slot.Storable limit) := htracks.1
    exact (restorable_reads hid hsize hlimit (Slot.restorable_listMap rfl
      TrackEntry.restorable (fun _ => rfl) (fun _ => rfl) hsc)).1 2
  have hT' := hT
  rw [show trackListTag = { Tag.plain .tracks with stop := true } from rfl, Tracks.toSlot,
    Slot.view, Marshal.field_master_stop] at hT'
  let gs : List (Tag × Slot) := Slot.restoredFields pre ++ [(trackListTag, Tracks.toSlot {})]
  have hi : Slot.fieldIndex gs .tracks = some (Slot.restoredFields pre).length :=
    Slot.fieldIndex_append_cons (by simp [pre, Slot.restoredFields_cons, trackListTag, Tag.plain])
  have hg : gs[(Slot.restoredFields pre).length]? = some ({ element := .tracks, stop := true },
      .record (Slot.clearedFields [(Tag.plain .trackEntry,
        Slot.list (TrackEntry.toSlot {}) (entries.map TrackEntry.toSlot))])) := by
    simp only [gs, List.getElem?_append_right (Nat.le_refl _), Nat.sub_self]
    rfl
  obtain ⟨f₂, rfl⟩ : ∃ f₂, f₁ = f₂ + 1 := ⟨f₁ - 1, by omega⟩
  obtain ⟨recs₂, hrun₂⟩ := readChildren_stopping_record hid hsize (by simp) htrackFields hT' hi
    hg f₂ ⟨none, false, 1⟩ (d.advance (wT.bytes ++ rest) (wSH.bytes.length + wI.bytes.length)
      recs₁) rest rfl rfl (by omega) rfl (fun E hE => by cases hE)
  refine ⟨recs₁ ++ recs₂, ?_⟩
  rw [readMaster_succ opts Slot.target (by decide)]
  change (readChildren opts Slot.target f₀ (.record (Slot.clearedFields pre ++
    [(trackListTag, Tracks.toSlot {})])) ⟨none, false, 1⟩ none).run d = _
  rw [hrun₁, hrun₂, Slot.modifyField_append_cons, advance_advance]
  simp only [Nat.add_assoc]
  rfl

end Reading

/-- A stream header's document that stores its data: so do its EBML header, its information and
its track list. -/
theorem headerDocument_storable {limit : Nat} {h : EbmlHeader} {info : Info}
    {entries : List TrackEntry}
    (hs : (Document.toSlot { header := h, segment := { info, tracks := ⟨entries⟩ } }).AllScalars
      (Slot.Storable limit)) :
    h.toSlot.AllScalars (Slot.Storable limit) ∧ info.toSlot.AllScalars (Slot.Storable limit) ∧
      (Tracks.mk entries).toSlot.AllScalars (Slot.Storable limit) := by
  simp only [Document.toSlot, Segment.toSlot, Slot.AllScalars, Slot.AllFieldScalars] at hs
  exact ⟨hs.1, hs.2.1.2.1, hs.2.1.2.2.1⟩

/-- An index with one seek for the information and one for the track list stores its data
within any limit of four octets or more. -/
theorem SeekHead.storable_of_seekIds {limit : Nat} (h4 : 4 ≤ limit) {idx : SeekHead}
    (hids : idx.seeks.map (·.seekId) = [Element.info.idBytes, Element.tracks.idBytes]) :
    idx.toSlot.AllScalars (Slot.Storable limit) := by
  refine SeekHead.storable idx fun s hs => ?_
  have hmem : s.seekId ∈ idx.seeks.map (·.seekId) := List.mem_map_of_mem hs
  rw [hids] at hmem
  have hinfo : Element.info.idBytes.length = 4 := rfl
  have htracks : Element.tracks.idBytes.length = 4 := rfl
  simp only [List.mem_cons, List.not_mem_nil, or_false] at hmem
  rcases hmem with h | h <;> rw [h] <;> omega

/-- The tracks a stream header lists once its segment is read back: its track entries as they
read back. -/
theorem headerTracks_headerSegment (x : Slot) (index : Option SeekHead) (info : Info)
    (entries : List TrackEntry) :
    headerTracks (.record (Slot.restoredFields [(Tag.plain .ebml, x)] ++
      [(.plain .segment, .record (Slot.restoredFields (headerSegment index info entries)))])) =
      entries.map TrackEntry.positiveZeros := by
  simp [headerTracks, Slot.fieldSlots, headerSegment, Slot.restoredField_of_written,
    trackListTag, Tracks.ofSlot_restored, Tracks.positiveZeros]

/-- A stream header written for track entries reads back, whatever octets follow it: the reading
stops right after the track list, with the entries read back (a double left out as zero coming
back as the positive zero), and leaves the decoder at the octets after the header. -/
theorem readHeader_writeHeader {opts : DecodeOptions} {wopts : WriterOptions} {limit : Nat}
    (hid : 4 ≤ opts.maxIdLength) (hsize : min wopts.marshal.maxSizeLength 8 ≤ opts.maxSizeLength)
    (hlimit : limit ≤ opts.allocationLimit) (h4 : 4 ≤ limit) {sink sink' : Sink}
    {entries : List TrackEntry} {n : Nat}
    (h : writeHeader sink (entries.map TrackDescription.ofEntry) wopts = (sink', .ok n))
    (hs : (Document.toSlot
      { header := wopts.header, segment := { info := wopts.info, tracks := ⟨entries⟩ } }).AllScalars
        (Slot.Storable limit)) :
    ∃ bytes, sink'.written = sink.written ++ bytes ∧ n = bytes.length ∧
      ∀ rest, ∃ d, readHeader opts (Decoder.ofSource (Source.ofBytes (bytes ++ rest))) =
        (.ok (entries.map TrackEntry.positiveZeros), d) ∧ d.source.ahead = rest ∧
        d.source.breaks = false := by
  obtain ⟨index, wE, hS, wS, hidx, hE, hhS, hwS, hwritten, rfl⟩ := writeHeader_parts h
  rw [fields_segmentFields] at hwS
  refine ⟨wE.bytes ++ (hS.bytes ++ wS.bytes), hwritten, rfl, fun rest => ?_⟩
  obtain ⟨hsE, hsI, hsT⟩ := headerDocument_storable hs
  let segment := headerSegment index wopts.info entries
  let top : List (Tag × Slot) := [(.plain .segment, .record (Slot.clearedFields segment))]
  let d₀ := Decoder.ofSource (Source.ofBytes (wE.bytes ++ (hS.bytes ++ wS.bytes) ++ rest))
  -- the budget is more than one step for each octet, and a few more
  obtain ⟨f₀, hbudget, hf₀⟩ : ∃ f₀, budget d₀ = f₀ + 1 ∧
      wE.bytes.length + hS.bytes.length + wS.bytes.length + 8 < f₀ := by
    refine ⟨budget d₀ - 1, ?_, ?_⟩ <;>
      simp only [budget, maxDepth, d₀, Decoder.ofSource, Source.ofBytes, List.length_append] <;>
      omega
  -- the EBML header is read as a field
  have hreadsE : ∀ f ∈ [(Tag.plain .ebml, wopts.header.toSlot)],
      FieldReads opts wopts.marshal 0 f.1 f.2 := by
    intro f hf
    rw [List.mem_singleton] at hf
    subst hf
    exact (restorable_reads hid hsize hlimit (EbmlHeader.restorable _ hsE)).1 0
  have hE' : Marshal.fields wopts.marshal 0 (Slot.viewFields [(Tag.plain .ebml,
      wopts.header.toSlot)]) {} = (wE.append {}, none) :=
    Marshal.fields_cons_of hE (show Marshal.fields wopts.marshal 0 [] {} = ({}, none) from rfl)
  obtain ⟨f₁, recs₁, hf₁, hrun₁⟩ := readChildren_fields opts wopts.marshal hreadsE [] top
    (by simp) hE' f₀ ⟨none, false, 0⟩ d₀ (hS.bytes ++ wS.bytes ++ rest) rfl rfl
    (by simp only [Output.append_empty]; omega)
    (by simp [d₀, Decoder.ofSource, Source.ofBytes]) (fun E hE => by cases hE)
  simp only [Output.append_empty, List.nil_append] at hf₁ hrun₁
  -- then the segment's header, of unknown size
  obtain ⟨f₂, rfl⟩ : ∃ f₂, f₁ = f₂ + 1 := ⟨f₁ - 1, by omega⟩
  let d₁ := d₀.advance (hS.bytes ++ wS.bytes ++ rest) wE.bytes.length recs₁
  let gs₁ := Slot.restoredFields [(Tag.plain .ebml, wopts.header.toSlot)] ++ top
  obtain ⟨id, hrun₂⟩ := readChildren_headOctets opts Slot.target f₂ (.record gs₁) ⟨none, false, 0⟩
    (HeadOctets.of_header_none hhS hid hsize)
    (show d₁.source.ahead = hS.bytes ++ (wS.bytes ++ rest) by simp [d₁, advance]) rfl
  -- the segment is entered as the second field, and its reading stops the header's
  have hi₁ : Slot.fieldIndex gs₁ .segment =
      some (Slot.restoredFields [(Tag.plain .ebml, wopts.header.toSlot)]).length :=
    Slot.fieldIndex_append_cons (by simp [Slot.restoredFields_cons, Tag.plain])
  have hg₁ : gs₁[(Slot.restoredFields [(Tag.plain .ebml, wopts.header.toSlot)]).length]? =
      some (.plain .segment, .record (Slot.clearedFields segment)) := by
    simp only [gs₁, top, List.getElem?_append_right (Nat.le_refl _), Nat.sub_self]
    rfl
  have hopen : Slot.Opens (.record (Slot.clearedFields segment))
      (.record (Slot.clearedFields segment)) := Or.inl ⟨rfl, rfl⟩
  obtain ⟨mid, hent, hclose⟩ := Slot.enter_of_opens hopen
  let d₂ := d₁.advance (wS.bytes ++ rest) hS.bytes.length []
  obtain ⟨recs₃, hrun₃⟩ := readMaster_headerSegment hid hsize hlimit
    (fun idx hmem => SeekHead.storable_of_seekIds h4 (hidx idx hmem)) hsI hsT hwS f₂ (by omega)
    { source := d₂.source, records := d₂.records ++ [⟨.segment, d₁.source.position,
      hS.bytes.length, none⟩] } rest (by simp [d₂, advance])
  let d₃ : Decoder := Decoder.advance { source := d₂.source, records := d₂.records ++
    [⟨.segment, d₁.source.position, hS.bytes.length, none⟩] } rest wS.bytes.length recs₃
  have hmaster : (readMaster opts Slot.target (f₀ + 1) streamHeaderSlot ⟨none, false, 0⟩).run d₀ =
      ((.record (Slot.restoredFields [(Tag.plain .ebml, wopts.header.toSlot)] ++
        [(.plain .segment, .record (Slot.restoredFields segment))]), .ok .stopped), d₃) := by
    rw [readMaster_succ opts Slot.target (Nat.zero_le _)]
    change (readChildren opts Slot.target f₀ (.record (Slot.clearedFields
      [(Tag.plain .ebml, wopts.header.toSlot)] ++ top)) ⟨none, false, 0⟩ none).run d₀ = _
    rw [hrun₁, hrun₂, readElement_unsized_stopped opts Slot.target rfl rfl
      (by simp [advance]) rfl (Slot.target_select_record hi₁ hg₁) rfl
      (Slot.target_enter_record hi₁ hg₁ hent) hrun₃,
      Slot.target_close_record (by rw [Slot.fieldIndex_modifyField]; exact hi₁),
      Slot.modifyField_modifyField, hclose, Slot.modifyField_append_cons]
    rfl
  refine ⟨d₃, ?_, by simp [d₃, advance], by simp [d₃, d₂, d₁, d₀, advance, Decoder.ofSource,
    Source.ofBytes]⟩
  show readHeader opts d₀ = _
  unfold readHeader
  rw [unmarshal_run, hbudget, hmaster]
  simp only [Except.map]
  rw [headerTracks_headerSegment _ index wopts.info entries]

end Ebml.Matroska
