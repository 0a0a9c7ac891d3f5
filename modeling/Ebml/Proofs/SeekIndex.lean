import Ebml.Proofs.Layout
import Ebml.Proofs.Payload
import Ebml.Proofs.SingleCaller

/-!
# The seek index of a stream header

A writer asked for a seek index first encodes the header with a placeholder index, whose
positions are all zero, and fills the index from the records of that draft: Info's and Tracks'
offsets from the start of the Segment's data. The header it then writes has the same layout as
the draft, because a seek position always takes eight octets, so the filled index gives the
places of Info and Tracks in the octets actually written.
-/

namespace Ebml

namespace Matroska
open Marshal

/-- A repeated field under a tag that keeps it when empty writes its items. -/
theorem field_plain_repeated (opts : MarshalOptions) (depth : Nat) (e : Element) (items : List View)
    (z : Bool) (o : Output) :
    field opts depth (Tag.plain e) (.repeated items z) o = repeated opts depth (Tag.plain e) items o := by
  unfold field
  rfl

theorem seek_view (s : Seek) : (Seek.toSlot s).view =
    .master [(.plain .seekId, .scalar (.binary s.seekId) s.seekId.isEmpty),
      ({ element := .seekPosition, size := .exact 8 }, .scalar (.uint s.seekPosition) (s.seekPosition == 0))]
      (s.seekId.isEmpty && s.seekPosition == 0) := by
  simp [Seek.toSlot, Slot.view, Slot.viewFields, Slot.fieldsZero, Slot.isZero]

/-- A position is written in eight octets, whatever its value. -/
theorem encode_seekPosition (p : UInt64) :
    Payload.encode .seekPosition (.uint p) (.exact 8) = .ok (Octets.ofNat 8 p.toNat) := by
  have hw := (Payload.unsignedWidth_spec (by simpa [Nat.pow_eq] using UInt64.toNat_lt p)).2.1
  simp only [Payload.encode, Element.dataType, Element.spec, Payload.encodeUnsigned,
    Payload.integerWidth, ge_iff_le, bind_pure_comp, pure_bind, Std.le_refl, hw, and_self, if_true]
  rfl

/-- Two index entries with the same identifier take the same octets, whatever their positions:
a position always takes eight octets. -/
theorem seek_length_eq {opts : MarshalOptions} {depth : Nat} {s s' : Seek} (hid : s.seekId = s'.seekId)
    {w w' : Output} (h : field opts depth (.plain .seek) (Seek.toSlot s).view {} = (w, none))
    (h' : field opts depth (.plain .seek) (Seek.toSlot s').view {} = (w', none)) :
    w.bytes.length = w'.bytes.length := by
  rw [seek_view] at h h'
  obtain ⟨hd, inner, hi, hh, hw, -⟩ := field_master_eq h
  obtain ⟨hd', inner', hi', hh', hw', -⟩ := field_master_eq h'
  have hinner : inner.bytes.length = inner'.bytes.length := by
    obtain ⟨wId, rest, hId, hrest, rfl⟩ := fields_cons_eq hi
    obtain ⟨wId', rest', hId', hrest', rfl⟩ := fields_cons_eq hi'
    rw [hid] at hId
    obtain rfl : wId = wId' := (Prod.mk.inj (hId.symm.trans hId')).1
    obtain ⟨wPos, nil, hPos, hnil, rfl⟩ := fields_cons_eq hrest
    obtain ⟨wPos', nil', hPos', hnil', rfl⟩ := fields_cons_eq hrest'
    obtain rfl : ({} : Output) = nil := (Prod.mk.inj hnil).1
    obtain rfl : ({} : Output) = nil' := (Prod.mk.inj hnil').1
    obtain ⟨data, hdP, hdata, hhP, hbP⟩ := field_scalar_eq rfl hPos
    obtain ⟨data', hdP', hdata', hhP', hbP'⟩ := field_scalar_eq rfl hPos'
    rw [encode_seekPosition, Except.ok.injEq] at hdata hdata'
    subst hdata hdata'
    rw [Octets.length_ofNat] at hhP hhP'
    obtain rfl : hdP = hdP' := (Prod.mk.inj (hhP.symm.trans hhP')).1
    simp only [Output.bytes_append, List.length_append, hbP, hbP', Octets.length_ofNat]
  rw [hinner] at hh
  obtain rfl : hd = hd' := (Prod.mk.inj (hh.symm.trans hh')).1
  rw [hw, hw', List.length_append, List.length_append, hinner]


theorem seekHead_view (h : SeekHead) : h.toSlot.view =
    .master [(.plain .seek, .repeated (Slot.viewItems (h.seeks.map Seek.toSlot))
      (h.seeks.map Seek.toSlot).isEmpty)] ((h.seeks.map Seek.toSlot).isEmpty && true) := rfl

/-- Index entries with the same identifiers, one after another, take the same octets. -/
theorem seeks_length_eq {opts : MarshalOptions} {depth : Nat} :
    ∀ {ss ss' : List Seek}, ss.map (·.seekId) = ss'.map (·.seekId) → ∀ {o o' : Output},
      repeated opts depth (.plain .seek) (Slot.viewItems (ss.map Seek.toSlot)) {} = (o, none) →
      repeated opts depth (.plain .seek) (Slot.viewItems (ss'.map Seek.toSlot)) {} = (o', none) →
      o.bytes.length = o'.bytes.length
  | [], [], _, o, o', h, h' => by
    obtain rfl : ({} : Output) = o := (Prod.mk.inj h).1
    obtain rfl : ({} : Output) = o' := (Prod.mk.inj h').1
    rfl
  | s :: ss, s' :: ss', hids, o, o', h, h' => by
    simp only [List.map_cons, List.cons.injEq] at hids
    simp only [List.map_cons, Slot.viewItems] at h h'
    obtain ⟨w, r, hw, hr, rfl⟩ := repeated_cons_eq h
    obtain ⟨w', r', hw', hr', rfl⟩ := repeated_cons_eq h'
    rw [Output.bytes_append, Output.bytes_append, List.length_append, List.length_append,
      seek_length_eq hids.1 hw hw', seeks_length_eq hids.2 hr hr']
  | [], _ :: _, hids, _, _, _, _ => by simp at hids
  | _ :: _, [], hids, _, _, _, _ => by simp at hids

/-- Seek indexes with the same identifiers take the same octets, whatever their positions. -/
theorem seekHead_length_eq {opts : MarshalOptions} {depth : Nat} {h h' : SeekHead} {w w' : Output}
    (hw : field opts depth (.plain .seekHead) h.toSlot.view {} = (w, none))
    (hw' : field opts depth (.plain .seekHead) h'.toSlot.view {} = (w', none))
    (hids : h.seeks.map (·.seekId) = h'.seeks.map (·.seekId)) :
    w.bytes.length = w'.bytes.length := by
  rw [seekHead_view] at hw hw'
  obtain ⟨hd, inner, hi, hh, hb, -⟩ := field_master_eq hw
  obtain ⟨hd', inner', hi', hh', hb', -⟩ := field_master_eq hw'
  have hinner : inner.bytes.length = inner'.bytes.length := by
    obtain ⟨wr, nil, hwr, hnil, rfl⟩ := fields_cons_eq hi
    obtain ⟨wr', nil', hwr', hnil', rfl⟩ := fields_cons_eq hi'
    obtain rfl : ({} : Output) = nil := (Prod.mk.inj hnil).1
    obtain rfl : ({} : Output) = nil' := (Prod.mk.inj hnil').1
    rw [field_plain_repeated] at hwr hwr'
    simp only [Output.append_empty]
    exact seeks_length_eq hids hwr hwr'
  rw [hinner] at hh
  obtain rfl : hd = hd' := (Prod.mk.inj (hh.symm.trans hh')).1
  rw [hb, hb', List.length_append, List.length_append, hinner]


/-- The track list of a stream header as the encoder sees it: one entry per track. -/
def trackListView (tracks : List TrackDescription) : View :=
  .master (tracks.map fun t => (Tag.plain .trackEntry, View.master t.entry false))
    (tracks.map fun t => (Tag.plain .trackEntry, View.master t.entry false)).isEmpty

theorem segmentFields_some (idx : SeekHead) (info : Info) (tracks : List TrackDescription) :
    segmentFields (some idx) info tracks =
      [(.plain .seekHead, idx.toSlot.view), (.plain .info, info.toSlot.view),
        (.plain .tracks, trackListView tracks)] := rfl

/-- A stream header with a seek index is encoded as its parts one after another: the EBML
header, the segment's header with the unknown size and its record, then the seek index, the
information and the track list, each as it is written alone. -/
theorem run_headerDocument_eq {opts : MarshalOptions} {hd : EbmlHeader} {idx : SeekHead}
    {info : Info} {tracks : List TrackDescription} {o : Output}
    (h : Marshal.run opts (headerDocument hd (segmentFields (some idx) info tracks)) = (o, none)) :
    ∃ wE hS wSH wI wT, field opts 0 (.plain .ebml) hd.toSlot.view {} = (wE, none) ∧
      header opts .segment none {} = (hS, none) ∧
      field opts 1 (.plain .seekHead) idx.toSlot.view {} = (wSH, none) ∧
      field opts 1 (.plain .info) info.toSlot.view {} = (wI, none) ∧
      field opts 1 (.plain .tracks) (trackListView tracks) {} = (wT, none) ∧
      o = wE.append ((hS.note ⟨.segment, 0, hS.length, none⟩).append (wSH.append (wI.append wT))) := by
  obtain ⟨wE, rest, hE, hrest, rfl⟩ := fields_cons_eq h
  obtain ⟨wS, nil, hS, hnil, rfl⟩ := fields_cons_eq hrest
  obtain rfl : ({} : Output) = nil := (Prod.mk.inj hnil).1
  obtain ⟨hdS, inner, hhS, hinner, rfl⟩ := field_unknown_eq hS
  rw [segmentFields_some] at hinner
  obtain ⟨wSH, r1, hSH, hr1, rfl⟩ := fields_cons_eq hinner
  obtain ⟨wI, r2, hI, hr2, rfl⟩ := fields_cons_eq hr1
  obtain ⟨wT, nil', hT, hnil', rfl⟩ := fields_cons_eq hr2
  obtain rfl : ({} : Output) = nil' := (Prod.mk.inj hnil').1
  exact ⟨wE, hdS, wSH, wI, wT, hE, hhS, hSH, hI, hT, by simp only [Output.append_empty]⟩


/-- Every record of a field written alone names its element or an element inside its view. -/
theorem records_field_elements {opts : MarshalOptions} {depth : Nat} {tag : Tag} {v : View}
    {w : Output} (h : field opts depth tag v {} = (w, none)) {P : Element → Prop}
    (hP : ∀ y ∈ tag.element :: v.elements, P y) : ∀ r ∈ w.records, P r.element := by
  intro r hr
  have hmem := mem_records_field opts depth tag v {} r
  rw [h] at hmem
  rcases hmem hr with hr | hr | hr
  · cases hr
  · exact hP _ (hr ▸ List.mem_cons_self ..)
  · exact hP _ (List.mem_cons_of_mem _ hr)

theorem seekPlaceholder_seeks :
    seekPlaceholder.seeks = [{ seekId := Element.info.idBytes }, { seekId := Element.tracks.idBytes }] :=
  rfl

/-- The records of a stream header: the EBML header's, the segment's own at the end of the EBML
header, then those of the segment's fields, moved past the segment's header. -/
theorem headerRecords_eq {wE hS wSH wI wT : Output} (hrS : hS.records = []) :
    (wE.append ((hS.note ⟨.segment, 0, hS.length, none⟩).append (wSH.append (wI.append wT)))).records =
      wE.records ++ ⟨.segment, wE.length, hS.length, none⟩ ::
        (wSH.records ++ (wI.records ++ wT.records.map (Record.shift wI.length)).map
          (Record.shift wSH.length)).map (Record.shift (wE.length + hS.length)) := by
  simp only [Output.records_append, Output.note, hrS, List.nil_append, List.map_append,
    List.map_cons, List.singleton_append, Record.map_shift_shift]
  simp [Record.shift, Nat.add_assoc]

/-- A search goes past records it refuses. -/
theorem find?_append_skip {p : Record → Bool} {l l' : List Record} (h : ∀ x ∈ l, p x = false) :
    (l ++ l').find? p = l'.find? p := by
  rw [List.find?_append, List.find?_eq_none.2 (fun x hx => by simp [h x hx]), Option.none_or]

/-- The first record a search finds: one it accepts, after records it refuses. -/
theorem find?_first {p : Record → Bool} {pre post : List Record} {r : Record}
    (hpre : ∀ x ∈ pre, p x = false) (hr : p r = true) : (pre ++ r :: post).find? p = some r := by
  rw [List.find?_append, List.find?_eq_none.2 (fun x hx => by simp [hpre x hx]), Option.none_or,
    List.find?_cons_of_pos hr]


theorem ebmlHeader_elements (hd : EbmlHeader) : (EbmlHeader.toSlot hd).view.elements =
    [.ebmlVersion, .ebmlReadVersion, .ebmlMaxIdLength, .ebmlMaxSizeLength, .docType,
      .docTypeVersion, .docTypeReadVersion] := rfl

theorem info_elements (i : Info) : (Info.toSlot i).view.elements =
    [.timecodeScale, .muxingApp, .writingApp, .duration, .title, .segmentUid] := rfl

/-- Filling the placeholder index from the records of a stream header finds the segment's data
after the EBML header and the segment's header, the information right after the index, and the
track list right after the information. -/
theorem fillSeekHead_header {opts : MarshalOptions} {hd : EbmlHeader} {info : Info}
    {tracks : List TrackDescription} {wE hS wSH wI wT : Output}
    (hE : field opts 0 (.plain .ebml) hd.toSlot.view {} = (wE, none))
    (hhS : header opts .segment none {} = (hS, none))
    (hSH : field opts 1 (.plain .seekHead) seekPlaceholder.toSlot.view {} = (wSH, none))
    (hI : field opts 1 (.plain .info) info.toSlot.view {} = (wI, none))
    (hT : field opts 1 (.plain .tracks) (trackListView tracks) {} = (wT, none)) :
    fillSeekHead seekPlaceholder
        (wE.append ((hS.note ⟨.segment, 0, hS.length, none⟩).append (wSH.append (wI.append wT)))).records =
      { seeks := [⟨Element.info.idBytes, wSH.length.toUInt64⟩,
          ⟨Element.tracks.idBytes, (wSH.length + wI.length).toUInt64⟩] } := by
  have hrS : hS.records = [] := by
    have := header_records opts .segment none {}
    rwa [hhS] at this
  obtain ⟨hdI, innerI, -, -, -, hrI⟩ := field_master_eq hI
  obtain ⟨hdT, innerT, -, -, -, hrT⟩ := field_master_eq hT
  have hEel := records_field_elements hE (P := fun y => y ≠ .segment ∧
    y.idBytes ≠ Element.info.idBytes ∧ y.idBytes ≠ Element.tracks.idBytes)
    (by rw [ebmlHeader_elements]; decide)
  have hSHel := records_field_elements hSH (P := fun y =>
    y.idBytes ≠ Element.info.idBytes ∧ y.idBytes ≠ Element.tracks.idBytes) (by decide)
  have hIel := records_field_elements hI (P := fun y => y.idBytes ≠ Element.tracks.idBytes)
    (by rw [info_elements]; decide)
  rw [headerRecords_eq hrS]
  unfold fillSeekHead
  rw [find?_first (fun x hx => by simpa using (hEel x hx).1) (by simp)]
  dsimp only
  rw [seekPlaceholder_seeks, hrI, hrT]
  simp only [List.map_cons, List.map_nil, List.cons_append, List.map_append, Record.dataPosition]
  have hsegId : (Element.segment.idBytes == Element.info.idBytes) = false ∧
      (Element.segment.idBytes == Element.tracks.idBytes) = false ∧
      (Element.info.idBytes == Element.tracks.idBytes) = false := by decide
  rw [find?_append_skip (fun x hx => by simp [(hEel x hx).2.1]),
    List.find?_cons_of_neg (by simp [hsegId.1]),
    find?_append_skip (fun x hx => by
      obtain ⟨r, hr, rfl⟩ := List.mem_map.1 hx
      simp [Record.shift, (hSHel r hr).1]),
    List.find?_cons_of_pos (by simp [Record.shift])]
  rw [find?_append_skip (fun x hx => by simp [(hEel x hx).2.2]),
    List.find?_cons_of_neg (by simp [hsegId.2.1]),
    find?_append_skip (fun x hx => by
      obtain ⟨r, hr, rfl⟩ := List.mem_map.1 hx
      simp [Record.shift, (hSHel r hr).2]),
    List.find?_cons_of_neg (by simp [Record.shift, hsegId.2.2]),
    find?_append_skip (fun x hx => by
      obtain ⟨r, hr, rfl⟩ := List.mem_map.1 hx
      obtain ⟨r', hr', rfl⟩ := List.mem_map.1 hr
      obtain ⟨r'', hr'', rfl⟩ := List.mem_map.1 hr'
      have := hIel _ (by rw [hrI]; exact List.mem_cons_of_mem _ (List.mem_map.2 ⟨r'', hr'', rfl⟩))
      simp [Record.shift] at this ⊢
      simp [this]),
    List.find?_cons_of_pos (by simp [Record.shift])]
  simp [Record.shift]
  exact UInt64.add_comm _ _

/-- A stream header written with a seek index is its parts one after another: the EBML
header, the segment's header with the unknown size, then the index, the information and the
track list. The index has one entry for the information and one for the track list, each with
the element's identifier and its offset from the start of the segment's data. -/
theorem writeHeader_indexed {sink sink' : Sink} {tracks : List TrackDescription}
    {opts : WriterOptions} {n : Nat} (hseek : opts.seekHead = true)
    (h : writeHeader sink tracks opts = (sink', .ok n)) :
    ∃ (wE hS wSH wI wT : Output) (idx : SeekHead),
      field opts.marshal 0 (.plain .ebml) opts.header.toSlot.view {} = (wE, none) ∧
      header opts.marshal .segment none {} = (hS, none) ∧
      field opts.marshal 1 (.plain .seekHead) idx.toSlot.view {} = (wSH, none) ∧
      field opts.marshal 1 (.plain .info) opts.info.toSlot.view {} = (wI, none) ∧
      field opts.marshal 1 (.plain .tracks) (trackListView tracks) {} = (wT, none) ∧
      sink'.written = sink.written ++ wE.bytes ++ hS.bytes ++ wSH.bytes ++ wI.bytes ++ wT.bytes ∧
      idx.seeks = [⟨Element.info.idBytes, wSH.bytes.length.toUInt64⟩,
        ⟨Element.tracks.idBytes, (wSH.bytes.length + wI.bytes.length).toUInt64⟩] := by
  unfold writeHeader at h
  simp only [hseek, if_true] at h
  rcases hd : encode opts.marshal
      (headerDocument opts.header (segmentFields (some seekPlaceholder) opts.info tracks)) with
    err | ⟨bytes, records⟩
  · rw [hd] at h
    cases h
  rw [hd] at h
  simp only [Except.map] at h
  rcases hm : sink.marshal opts.marshal (headerDocument opts.header
      (segmentFields (some (fillSeekHead seekPlaceholder records)) opts.info tracks)) with
    ⟨s₁, _ | ⟨n', recs⟩⟩
  · rw [hm] at h
    cases h
  rw [hm] at h
  obtain rfl : s₁ = sink' := (Prod.mk.inj h).1
  -- the draft, with every position zero, gives the records the index is filled from
  obtain ⟨oD, hrunD, -, rfl⟩ := encode_eq_ok hd
  obtain ⟨wE, hS, wSH, wI, wT, hE, hhS, hSH, hI, hT, rfl⟩ := run_headerDocument_eq hrunD
  rw [fillSeekHead_header hE hhS hSH hI hT] at hm
  obtain ⟨oF, hrunF, hwritten⟩ := Sink.marshal_ok hm
  obtain ⟨wE', hS', wSH', wI', wT', hE', hhS', hSH', hI', hT', rfl⟩ := run_headerDocument_eq hrunF
  obtain rfl : wE = wE' := (Prod.mk.inj (hE.symm.trans hE')).1
  obtain rfl : hS = hS' := (Prod.mk.inj (hhS.symm.trans hhS')).1
  obtain rfl : wI = wI' := (Prod.mk.inj (hI.symm.trans hI')).1
  obtain rfl : wT = wT' := (Prod.mk.inj (hT.symm.trans hT')).1
  have hlen : wSH.bytes.length = wSH'.bytes.length := seekHead_length_eq hSH hSH' rfl
  have hsized : wSH.length = wSH.bytes.length ∧ wI.length = wI.bytes.length := by
    have hs := field_sized opts.marshal 1 (.plain .seekHead) seekPlaceholder.toSlot.view
      Output.sized_empty
    have hi := field_sized opts.marshal 1 (.plain .info) opts.info.toSlot.view Output.sized_empty
    rw [hSH] at hs
    rw [hI] at hi
    exact ⟨hs, hi⟩
  refine ⟨wE, hS, wSH', wI, wT, _, hE, hhS, hSH', hI, hT, ?_, ?_⟩
  · rw [hwritten]
    simp [List.append_assoc]
  · rw [hsized.1, hsized.2, hlen]

/-- What a writer with an index writes after the octets already in its sink: the EBML header,
the header of a Segment of unknown size and, as the Segment's first child, a SeekHead with one
seek for Info and one for Tracks. Each seek's position is the offset from the first octet of the
Segment's data at which the stream holds that element, which starts with its identifier. -/
def IndexedHeader (opts : WriterOptions) (tracks : List TrackDescription) (pre stream : Bytes) :
    Prop :=
  ∃ (wE hS wSH wI wT : Output) (idx : SeekHead) (offInfo offTracks : Nat),
    field opts.marshal 0 (.plain .ebml) opts.header.toSlot.view {} = (wE, none) ∧
    header opts.marshal .segment none {} = (hS, none) ∧
    field opts.marshal 1 (.plain .seekHead) idx.toSlot.view {} = (wSH, none) ∧
    field opts.marshal 1 (.plain .info) opts.info.toSlot.view {} = (wI, none) ∧
    field opts.marshal 1 (.plain .tracks) (trackListView tracks) {} = (wT, none) ∧
    pre ++ wE.bytes ++ hS.bytes ++ wSH.bytes <+: stream ∧
    idx.seeks = [⟨Element.info.idBytes, offInfo.toUInt64⟩, ⟨Element.tracks.idBytes, offTracks.toUInt64⟩] ∧
    wI.bytes <+: stream.drop ((pre ++ wE.bytes ++ hS.bytes).length + offInfo) ∧
    wT.bytes <+: stream.drop ((pre ++ wE.bytes ++ hS.bytes).length + offTracks) ∧
    Element.info.idBytes <+: wI.bytes ∧ Element.tracks.idBytes <+: wT.bytes

/-- A stream written with an index starts, after what the sink held, with a SeekHead that gives
the places of Info and Tracks in the Segment. -/
theorem writeStream_indexes_segment {sink : Sink} {tracks : List TrackDescription}
    {opts : WriterOptions} {writes : List HandleWrite} {r : WriteResult}
    (hseek : opts.seekHead = true) (h : writeStream sink tracks opts writes = .ok r) :
    IndexedHeader opts tracks sink.written r.stream := by
  obtain ⟨sink', n, hw, rest, hrest⟩ := writeStream_extends_header h
  obtain ⟨wE, hS, wSH, wI, wT, idx, hE, hhS, hSH, hI, hT, hwritten, hseeks⟩ :=
    writeHeader_indexed hseek hw
  have hstream : r.stream =
      (sink.written ++ wE.bytes ++ hS.bytes) ++ (wSH.bytes ++ (wI.bytes ++ (wT.bytes ++ rest))) := by
    rw [← hrest, hwritten]
    simp only [List.append_assoc]
  refine ⟨wE, hS, wSH, wI, wT, idx, wSH.bytes.length, wSH.bytes.length + wI.bytes.length,
    hE, hhS, hSH, hI, hT, ?_, hseeks, ?_, ?_, field_master_starts_with_id hI,
    field_master_starts_with_id hT⟩
  · rw [hstream]
    exact ⟨wI.bytes ++ (wT.bytes ++ rest), by simp only [List.append_assoc]⟩
  · rw [hstream, List.drop_length_add_append, List.drop_left]
    exact List.prefix_append _ _
  · rw [hstream, List.drop_length_add_append, List.drop_length_add_append, List.drop_left]
    exact List.prefix_append _ _

/-- A stream of one track, written with an index and no frames, has its header indexed. -/
theorem one_track_stream_indexed :
    ∃ r, writeStream {} [⟨1, []⟩] { seekHead := true } [] = .ok r ∧
      IndexedHeader { seekHead := true } [⟨1, []⟩] [] r.stream := by
  have hok : (writeStream {} [⟨1, []⟩] { seekHead := true } []).toBool = true := by decide +kernel
  cases hw : writeStream {} [⟨1, []⟩] { seekHead := true } [] with
  | error e =>
    rw [hw] at hok
    cases hok
  | ok r => exact ⟨r, rfl, writeStream_indexes_segment rfl hw⟩

end Matroska

end Ebml
