import Ebml.Proofs.Encoding
import Ebml.Proofs.Decoding
import Ebml.Proofs.Payload

/-!
# Maps read back

A map whose values have the kinds their elements decode to is read back exactly from its
encoding, and the decoding finishes at the end of the octets. The proof follows the decoder one
element at a time: an entry reads back in one step (`EntryReads`), the steps chain over the
entries written one after another (`readChildren_entries`), and every restorable entry reads
back (`entryReads_of_restorable`), by induction on restorability: a scalar is a header and its
data, a map a header and then its entries, read by the chain one level deeper until its data is
exhausted.
-/

namespace Ebml

namespace Decoder

section MapReading

variable (opts : DecodeOptions) (mopts : MarshalOptions)

/-- What reading back one entry of a map does: where the source starts with the octets the
entry is written as, at the depth it was written at, within the current master's data and with
fuel for its octets, one step of reading into a map stores the entry and moves past them. -/
def EntryReads (depth : Nat) (x : Element × Value) : Prop :=
  ∀ w : Output, Marshal.field mopts depth (Tag.plain x.1) (View.ofValue x.2) {} = (w, none) →
    ∀ (fuel : Nat) (acc : ElementMap) (ext : Extent) (d : Decoder) (rest : Bytes),
      ext.depth = depth → ext.unknownTop = false → w.bytes.length ≤ fuel →
      d.source.ahead = w.bytes ++ rest → (∀ E ∈ ext.stop, d.source.position + w.bytes.length ≤ E) →
      ∃ recs, (readChildren opts Slot.target (fuel + 1) (.map acc) ext none).run d =
        (readChildren opts Slot.target fuel (.map (acc.push x.1 x.2)) ext none).run
          (d.advance rest w.bytes.length recs)

/-- Entries written one after another are read back one step each, pushed in order onto the
map being read. -/
theorem readChildren_entries {depth : Nat} :
    ∀ {es : List (Element × Value)}, (∀ x ∈ es, EntryReads opts mopts depth x) →
    ∀ {o : Output},
      Marshal.fields mopts depth (es.map fun x => (Tag.plain x.1, View.ofValue x.2)) {} = (o, none) →
    ∀ (fuel : Nat) (acc : ElementMap) (ext : Extent) (d : Decoder) (rest : Bytes),
      ext.depth = depth → ext.unknownTop = false → o.bytes.length < fuel →
      d.source.ahead = o.bytes ++ rest → (∀ E ∈ ext.stop, d.source.position + o.bytes.length ≤ E) →
      ∃ fuel' recs, 0 < fuel' ∧ (readChildren opts Slot.target fuel (.map acc) ext none).run d =
        (readChildren opts Slot.target fuel' (.map (es.foldl (fun m x => m.push x.1 x.2) acc)) ext
          none).run (d.advance rest o.bytes.length recs)
  | [], _, o, h, fuel, acc, ext, d, rest, _, _, hfuel, hs, _ => by
    simp only [List.map_nil, Marshal.fields, Prod.mk.injEq, and_true] at h
    subst h
    have hempty : ({} : Output).bytes = [] := rfl
    rw [hempty, List.nil_append] at hs
    refine ⟨fuel, [], hfuel, ?_⟩
    rw [List.foldl_nil, hempty, List.length_nil, advance_zero hs]
  | x :: es, hsteps, o, h, fuel, acc, ext, d, rest, hdepth, htop, hfuel, hs, hfit => by
    obtain ⟨w, hw, o', ho', hbytes⟩ := Marshal.fields_cons_ok h
    have hpos := Marshal.field_plain_length_pos hw
    rw [hbytes, List.length_append] at hfuel hfit
    obtain ⟨fuel, rfl⟩ : ∃ f, fuel = f + 1 := ⟨fuel - 1, by omega⟩
    obtain ⟨recs, hstep⟩ := hsteps x List.mem_cons_self w hw fuel acc ext d (o'.bytes ++ rest)
      hdepth htop (by omega) (by rw [hs, hbytes, List.append_assoc])
      (fun E hE => by have := hfit E hE; omega)
    obtain ⟨fuel', recs', hfuel', hrest⟩ := readChildren_entries
      (fun y hy => hsteps y (List.mem_cons_of_mem x hy)) ho' fuel (acc.push x.1 x.2) ext
      (d.advance (o'.bytes ++ rest) w.bytes.length recs) rest hdepth htop (by omega) rfl
      (fun E hE => by simp only [advance]; have := hfit E hE; omega)
    refine ⟨fuel', recs ++ recs', hfuel', ?_⟩
    rw [hstep, hrest, advance_advance, hbytes, List.length_append, List.foldl_cons]

/-- The entries of a map read back when each of its values does, within the allocation limit. -/
theorem entryReads_entries {m : ElementMap}
    (hvals : ∀ g ∈ m, ∀ v ∈ g.2, v.longestPayload g.1 ≤ opts.allocationLimit →
      ∀ depth, EntryReads opts mopts depth (g.1, v))
    (hlimit : ElementMap.longestPayload m ≤ opts.allocationLimit) (depth : Nat) :
    ∀ x ∈ ElementMap.entries m, EntryReads opts mopts depth x := by
  intro x hx
  obtain ⟨g, hg, hge, hxv⟩ := ElementMap.mem_entries.mp hx
  have hx' := hvals g hg x.2 hxv (Nat.le_trans (ElementMap.longestPayload_le hg hxv) hlimit) depth
  rw [hge] at hx'
  exact hx'

variable {opts mopts} (hid : 4 ≤ opts.maxIdLength) (hsize : mopts.maxSizeLength ≤ opts.maxSizeLength)
include hid hsize

/-- A restorable scalar is read back in one step: its header, then its data. -/
theorem entryReads_scalar {e : Element} {v : Value} (hv : v.Restorable e)
    (hview : View.ofValue v = .scalar v v.isZero)
    (hlimit : v.longestPayload e ≤ opts.allocationLimit) (depth : Nat) :
    EntryReads opts mopts depth (e, v) := by
  intro w hw fuel acc ext d rest _ htop _ hs hfit
  have hm : e.isMaster = false := by
    rw [hv.isMaster_eq]
    cases v <;> simp_all [View.ofValue, Value.kind]
  rw [hview] at hw
  obtain ⟨data, sz, hp, hsz, hbytes⟩ := Marshal.field_scalar_ok hw
  have hmax : data.length ≤ Vint.maxUnsigned := (Vint.encode_some_ok hsz).2.1
  have hdata : data.length ≤ opts.allocationLimit :=
    Nat.le_trans (Value.length_le_longestPayload hp) hlimit
  have hpos := e.idBytes_length_pos
  rw [hbytes] at hs hfit ⊢
  simp only [List.length_append] at hfit ⊢
  have hhead := Header.read_encoded e hid hsz (Nat.le_trans (Nat.min_le_left _ _) hsize)
    (show d.source.ahead = e.idBytes ++ sz ++ (data ++ rest) by rw [hs, List.append_assoc])
  have hread := Payload.read_encode hv hp hmax hdata
    (show (Source.mk (data ++ rest) d.source.held d.source.breaks
      (d.source.position + (e.idBytes.length + sz.length))).ahead = data ++ rest from rfl)
  refine ⟨[⟨e, d.source.position, e.idBytes.length + sz.length, some data.length⟩], ?_⟩
  rw [readChildren_header opts Slot.target (start_of_fits hfit (by omega)) hhead,
    readElement_scalar opts Slot.target rfl rfl (Nat.add_sub_cancel _ _)
      (overruns_of_fits (fun E hE => by have := hfit E hE; dsimp only; omega)) htop
      (Slot.target_select_map acc e) hm hread (Slot.target_assign_map _ e v) rfl,
    ElementMap.setLast_push]
  simp only [advance, Nat.add_assoc]

/-- Every restorable entry is read back in one step: a scalar with its data, a map with all its
entries, read to the end of its data. -/
theorem entryReads_of_restorable {e : Element} {v : Value} (hv : v.Restorable e) :
    v.longestPayload e ≤ opts.allocationLimit → ∀ depth, EntryReads opts mopts depth (e, v) := by
  induction hv with
  | @master e groups hdt hwf hvals ih =>
    intro hlimit depth w hw fuel acc ext d rest hdepth htop hfuel hs hfit
    subst hdepth
    obtain ⟨hm, hdeep, inner, sz, hinner, hsz, hbytes⟩ := Marshal.field_master_ok hw
    rw [View.ofGroups_eq_entries] at hinner
    have hentries := entryReads_entries opts mopts ih hlimit (ext.depth + 1)
    have hpos := e.idBytes_length_pos
    have hszpos := Vint.length_encode_pos hsz
    rw [hbytes] at hs hfit hfuel ⊢
    simp only [List.length_append] at hfit hfuel ⊢
    have hhead := Header.read_encoded e hid hsz (Nat.le_trans (Nat.min_le_left _ _) hsize)
      (show d.source.ahead = e.idBytes ++ sz ++ (inner.bytes ++ rest) by rw [hs, List.append_assoc])
    obtain ⟨f, rfl⟩ : ∃ f, fuel = f + 1 := ⟨fuel - 1, by omega⟩
    let header : Record := ⟨e, d.source.position, e.idBytes.length + sz.length, some inner.bytes.length⟩
    let d₁ := d.advance (inner.bytes ++ rest) (e.idBytes.length + sz.length) [header]
    obtain ⟨f', recs, hf', hrun⟩ := readChildren_entries opts mopts hentries hinner f []
      ⟨some (d₁.source.position + inner.bytes.length), false, ext.depth + 1⟩ d₁ rest rfl rfl
      (by omega) rfl (fun E hE => by simp only [Option.mem_def, Option.some.injEq] at hE; omega)
    obtain ⟨f'', rfl⟩ : ∃ f'', f' = f'' + 1 := ⟨f' - 1, by omega⟩
    rw [ElementMap.foldl_push_entries hwf (by simp), List.nil_append] at hrun
    have hchild : (readMaster opts Slot.target (f + 1) (.map [])
        ⟨some (d₁.source.position + inner.bytes.length), false, ext.depth + 1⟩).run d₁ =
        ((.map groups, .ok .exhausted), d₁.advance rest inner.bytes.length recs) := by
      rw [readMaster_succ opts Slot.target hdeep, hrun,
        readChildren_exhausted opts Slot.target rfl (by simp only [advance]; omega)]
    refine ⟨header :: recs, ?_⟩
    rw [readChildren_header opts Slot.target (start_of_fits hfit (by omega)) hhead,
      readElement_master opts Slot.target rfl rfl (Nat.add_sub_cancel _ _)
        (overruns_of_fits (fun E hE => by have := hfit E hE; dsimp only; omega)) htop
        (Slot.target_select_map acc e) hm (Slot.target_enter_fresh acc hm) hchild
        (Slot.target_finish _) rfl, Slot.target_close_map, ElementMap.setLast_push]
    simp only [d₁, advance_advance, List.singleton_append, Nat.add_assoc]
  | _ =>
    intro hlimit depth
    exact entryReads_scalar hid hsize (by constructor <;> assumption) rfl hlimit depth

end MapReading

/-- A map of restorable values, encoded as a document, decodes back into the same map: every
group in order, every value in its group, and the decoding finishes at the end of the octets. -/
theorem unmarshal_encode_map {m : ElementMap} (hwf : ElementMap.WellFormed m)
    (hvals : ∀ g ∈ m, ∀ v ∈ g.2, v.Restorable g.1) {mopts : MarshalOptions} {bytes : Bytes}
    {records : List Record}
    (henc : Marshal.encode mopts (Slot.map m).document = .ok (bytes, records))
    {opts : DecodeOptions} (hid : 4 ≤ opts.maxIdLength)
    (hsize : mopts.maxSizeLength ≤ opts.maxSizeLength)
    (hlimit : ElementMap.longestPayload m ≤ opts.allocationLimit) :
    ((unmarshal opts Slot.target (Slot.map [])).run (ofSource (Source.ofBytes bytes))).1 =
      (Slot.map m, .ok .finished) := by
  obtain ⟨o, hfields, rfl⟩ := Marshal.encode_ok henc
  rw [Slot.document, View.ofGroups_eq_entries] at hfields
  have hentries := entryReads_entries opts mopts
    (fun g hg v hv => entryReads_of_restorable hid hsize (hvals g hg v hv)) hlimit 0
  obtain ⟨f, hbudget, hf⟩ : ∃ f, budget (ofSource (Source.ofBytes o.bytes)) = f + 1 ∧
      o.bytes.length < f := by
    refine ⟨40 * (o.bytes.length + 2) - 1, ?_, by omega⟩
    simp only [budget, maxDepth, ofSource, Source.ofBytes]
    omega
  obtain ⟨fuel, recs, hfuel, hrun⟩ := readChildren_entries opts mopts hentries hfields f []
    ⟨none, false, 0⟩ (ofSource (Source.ofBytes o.bytes)) [] rfl rfl hf (List.append_nil _).symm
    (fun E hE => by cases hE)
  obtain ⟨fuel, rfl⟩ : ∃ k, fuel = k + 1 := ⟨fuel - 1, by omega⟩
  rw [ElementMap.foldl_push_entries hwf (by simp), List.nil_append] at hrun
  rw [unmarshal_run, hbudget, readMaster_succ opts Slot.target (Nat.zero_le _), hrun,
    readChildren_eof opts Slot.target rfl (Header.read_end rfl rfl)]
  rfl

/-- The EBML header of a WebM stream, document version one, reads back after encoding. -/
theorem unmarshal_encode_webmHeader :
    ((unmarshal {} Slot.target (Slot.map [])).run (ofSource (Source.ofBytes
        [0x1A, 0x45, 0xDF, 0xA3, 0x8B, 0x42, 0x86, 0x81, 0x01, 0x42, 0x82, 0x84, 0x77, 0x65, 0x62,
          0x6D]))).1 =
      (Slot.map [(.ebml, [.master [(.ebmlVersion, [.uint 1]), (.docType, [.string "webm"])]])],
        .ok .finished) := by
  refine @unmarshal_encode_map _ ⟨by decide, by simp⟩ ?_ {} _
    [⟨.ebml, 0, 5, some 11⟩, ⟨.ebmlVersion, 5, 3, some 1⟩, ⟨.docType, 9, 3, some 4⟩] rfl {}
    (by decide) (by decide) (by decide)
  intro g hg v hv
  simp only [List.mem_singleton] at hg
  subst hg
  simp only [List.mem_singleton] at hv
  subst hv
  refine .master rfl ⟨by decide, by simp⟩ ?_
  intro g hg v hv
  simp only [List.mem_cons, List.not_mem_nil, or_false] at hg
  rcases hg with rfl | rfl <;> simp only [List.mem_singleton] at hv <;> subst hv
  · exact .uint rfl
  · exact .string (Or.inl rfl) (by decide)

end Decoder

end Ebml
