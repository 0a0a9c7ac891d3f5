import Ebml.Proofs.Records

/-!
# The decoder reports the encoder's records

Reading back a document in which nothing is streamed, a decoder into a map takes every step as
written or fails (`Replays`), so a decoding that ends without error notes exactly the records
the encoder reported, where the encoder put them (`unmarshal_records_eq`).
-/

namespace Ebml

namespace ReadM

/-- A reading that, when it succeeds, has taken exactly `n` octets from the front of its source
and changed nothing else. -/
def Takes {α : Type} (r : ReadM α) (n : Nat) : Prop :=
  ∀ s a s', r.run s = (.ok a, s') → ∃ bs, bs.length = n ∧ s.ahead = bs ++ s'.ahead ∧
    s'.position = s.position + n ∧ s'.held = s.held ∧ s'.breaks = s.breaks

variable {α β : Type}

theorem takes_pure (a : α) : Takes (pure a : ReadM α) 0 := by
  intro s b s' h
  simp only [run_pure, Prod.mk.injEq] at h
  obtain ⟨-, rfl⟩ := h
  exact ⟨[], rfl, rfl, rfl, rfl, rfl⟩

theorem takes_fail (e : Error) (n : Nat) : Takes (fail e : ReadM α) n := by
  intro s a s' h
  simp at h

theorem takes_exact (n : Nat) : Takes (exact n) n := by
  intro s bs s' h
  simp only [exact, take, run_bind, run_get, run_set] at h
  split at h
  · simp at h
  · rename_i hlen
    simp only [run_pure, Prod.mk.injEq, Except.ok.injEq] at h
    obtain ⟨rfl, rfl⟩ := h
    have hn : n ≤ s.ahead.length := by simp at hlen; omega
    refine ⟨s.ahead.take n, by simp; omega, by simp, by simp; omega, rfl, rfl⟩

theorem takes_ofExcept (r : Except Error α) : Takes (ofExcept r) 0 := by
  cases r with
  | error e => exact takes_fail e 0
  | ok a => exact takes_pure a

/-- A reading followed by another takes what both take. -/
theorem Takes.bind {r : ReadM α} {f : α → ReadM β} {m n k : Nat} (hr : Takes r m)
    (hf : ∀ a, Takes (f a) n) (hk : m + n = k) : Takes (r >>= f) k := by
  intro s b s'' h
  obtain ⟨a, s', h₁, h₂⟩ := run_bind_ok h
  obtain ⟨bs, hlen, hs, hpos, hheld, hbreaks⟩ := hr s a s' h₁
  obtain ⟨bs', hlen', hs', hpos', hheld', hbreaks'⟩ := hf a s' b s'' h₂
  refine ⟨bs ++ bs', by rw [List.length_append, hlen, hlen', hk], ?_, by omega,
    hheld'.trans hheld, hbreaks'.trans hbreaks⟩
  rw [hs, hs', List.append_assoc]

/-- What a source is after a reading that took the octets in front of `rest`. -/
theorem Takes.run_eq {r : ReadM α} {n : Nat} (hr : Takes r n) {s s' : Source} {a : α}
    {data rest : Bytes} (h : r.run s = (.ok a, s')) (hs : s.ahead = data ++ rest)
    (hlen : data.length = n) : s' = { s with ahead := rest, position := s.position + n } := by
  obtain ⟨bs, hbs, hs', hpos, hheld, hbreaks⟩ := hr s a s' h
  have hrest : s'.ahead = rest := (List.append_inj (hs'.symm.trans hs) (by rw [hbs, hlen])).2
  obtain ⟨ahead', held', breaks', pos'⟩ := s'
  simp only at hrest hpos hheld hbreaks
  subst hrest hpos hheld hbreaks
  rfl

end ReadM

namespace Payload

open ReadM

theorem takes_readOctets (opts : DecodeOptions) (n : Nat) : Takes (readOctets opts n) n := by
  unfold readOctets
  split
  · exact takes_fail _ n
  · exact takes_exact n

/-- Reading the data of an element of `n` octets takes exactly those octets when it succeeds,
whatever the data type. -/
theorem takes_read (opts : DecodeOptions) (t : DataType) (n : Nat) : Takes (read opts t n) n := by
  cases t with
  | signedInt =>
    simp only [read]
    split
    · exact takes_fail _ n
    split
    · rename_i h0
      rw [h0]
      exact takes_pure _
    · exact (takes_exact n).bind (fun _ => takes_pure _) (Nat.add_zero n)
  | unsignedInt =>
    simp only [read]
    split
    · exact takes_fail _ n
    · exact (takes_exact n).bind (fun _ => takes_pure _) (Nat.add_zero n)
  | float =>
    simp only [read]
    split
    · rename_i h0
      rw [h0]
      exact takes_pure _
    split
    · rename_i h4
      rw [h4]
      exact (takes_exact 4).bind (fun _ => takes_pure _) rfl
    split
    · rename_i h8
      rw [h8]
      exact (takes_exact 8).bind (fun _ => takes_pure _) rfl
    · exact takes_fail _ n
  | string | utf8 =>
    simp only [read]
    refine (takes_readOctets opts n).bind (fun data => ?_) (Nat.add_zero n)
    split
    · exact takes_pure _
    · exact takes_fail _ 0
  | date =>
    simp only [read]
    split
    · rename_i h0
      rw [h0]
      exact takes_pure _
    split
    · rename_i h8
      rw [h8]
      exact (takes_exact 8).bind (fun _ => takes_pure _) rfl
    · exact takes_fail _ n
  | binary =>
    simp only [read]
    exact (takes_readOctets opts n).bind (fun _ => takes_pure _) (Nat.add_zero n)
  | block =>
    simp only [read]
    exact (takes_readOctets opts n).bind
      (fun data => (takes_ofExcept _).bind (fun _ => takes_pure _) rfl) (Nat.add_zero n)
  | master => exact takes_fail _ n

end Payload

namespace Decoder

/-- A run of the decoder that ends in an error. -/
def Fails {τ : Type} (x : (τ × Except Error MasterEnd) × Decoder) : Prop :=
  ∃ err, x.1.2 = .error err

section Failing

variable {τ : Type} (opts : DecodeOptions) (T : Target τ)

/-- Running out of fuel is an error. -/
theorem readChildren_zero (t : τ) (ext : Extent) (p : Option Header) (d : Decoder) :
    Fails ((readChildren opts T 0 t ext p).run d) := by
  rw [readChildren]
  exact ⟨_, rfl⟩

theorem readMaster_zero (t : τ) (ext : Extent) (d : Decoder) :
    Fails ((readMaster opts T 0 t ext).run d) := by
  rw [readMaster]
  exact ⟨_, rfl⟩

/-- A master nested deeper than allowed is an error. -/
theorem readMaster_deep {fuel : Nat} (t : τ) {ext : Extent} (hdeep : maxDepth < ext.depth)
    (d : Decoder) : Fails ((readMaster opts T (fuel + 1) t ext).run d) := by
  rw [readMaster, if_pos hdeep]
  exact ⟨_, rfl⟩

/-- A header that cannot be read ends the reading with that error. -/
theorem readChildren_header_error {fuel : Nat} {t : τ} {ext : Extent} {d : Decoder} {s : Source}
    {err : Error} (hstart : ext.stop.any (fun E => decide (d.source.position ≥ E)) = false)
    (hh : (Header.read opts).run d.source = (.error err, s)) :
    Fails ((readChildren opts T (fuel + 1) t ext none).run d) := by
  rw [readChildren, DecodeM.run_bind, DecodeM.run_position]
  simp only [hstart, Bool.false_eq_true, if_false, DecodeM.run_bind, DecodeM.run_read, hh]
  exact ⟨err, rfl⟩

end Failing

section Replaying

variable (opts : DecodeOptions)

/-- Reading back, into a map, octets written as `w` that lie ahead of `rest` in the master being
read: the reading fails, or it reads past those octets, noting `w`'s records where they lie, and
goes on with the same master. -/
def Replays (fuel : Nat) (acc : ElementMap) (ext : Extent) (d : Decoder) (rest : Bytes)
    (w : Output) : Prop :=
  Fails ((readChildren opts Slot.target fuel (.map acc) ext none).run d) ∨
    ∃ fuel' acc', (readChildren opts Slot.target fuel (.map acc) ext none).run d =
      (readChildren opts Slot.target fuel' (.map acc') ext none).run
        (d.advance rest w.bytes.length (w.records.map (Record.shift d.source.position)))

/-- Octets written as `w` read back from wherever they lie, in any master they fit in other than
an unknown-sized top-level one. -/
def ReadsBack (w : Output) : Prop :=
  ∀ (fuel : Nat) (acc : ElementMap) (ext : Extent) (d : Decoder) (rest : Bytes),
    ext.unknownTop = false → d.source.ahead = w.bytes ++ rest →
    (∀ E ∈ ext.stop, d.source.position + w.bytes.length ≤ E) → Replays opts fuel acc ext d rest w

/-- Nothing written is read back in no step. -/
theorem readsBack_empty : ReadsBack opts {} := by
  intro fuel acc ext d rest _ hs _
  have hempty : ({} : Output).bytes = [] := rfl
  rw [hempty, List.nil_append] at hs
  refine .inr ⟨fuel, acc, ?_⟩
  show _ = (readChildren opts Slot.target fuel (.map acc) ext none).run (d.advance rest 0 [])
  rw [advance_zero hs]

/-- Octets written one after another read back one after another. -/
theorem ReadsBack.append {w o : Output} (hw : w.Sized) (h : ReadsBack opts w)
    (h' : ReadsBack opts o) : ReadsBack opts (w.append o) := by
  intro fuel acc ext d rest htop hs hfit
  rw [Output.bytes_append, List.append_assoc] at hs
  simp only [Output.bytes_append, List.length_append] at hfit
  rcases h fuel acc ext d (o.bytes ++ rest) htop hs (fun E hE => by have := hfit E hE; omega)
    with hfail | ⟨fuel', acc', heq⟩
  · exact .inl hfail
  rcases h' fuel' acc' ext (d.advance (o.bytes ++ rest) w.bytes.length
      (w.records.map (Record.shift d.source.position))) rest htop rfl
      (fun E hE => by have := hfit E hE; simp only [advance]; omega) with hfail | ⟨fuel'', acc'', heq'⟩
  · exact .inl (by rw [heq]; exact hfail)
  · refine .inr ⟨fuel'', acc'', ?_⟩
    have hlen : w.length = w.bytes.length := hw
    rw [heq, heq', advance_advance]
    simp only [advance, Output.bytes_append, List.length_append, Output.records_append,
      List.map_append, Record.map_shift_shift, hlen]

/-- The children of a master, written as `inner` and lying ahead of `rest`, read back to the end
of the master's data: the reading fails, or it exhausts the data having noted their records. -/
theorem readMaster_readsBack {inner : Output} (hinner : ReadsBack opts inner) (fuel : Nat)
    (ext : Extent) {d : Decoder} {rest : Bytes}
    (hstop : ext.stop = some (d.source.position + inner.bytes.length))
    (htop : ext.unknownTop = false) (hs : d.source.ahead = inner.bytes ++ rest) :
    Fails ((readMaster opts Slot.target fuel (.map []) ext).run d) ∨
      ∃ acc, (readMaster opts Slot.target fuel (.map []) ext).run d =
        ((.map acc, .ok .exhausted),
          d.advance rest inner.bytes.length (inner.records.map (Record.shift d.source.position))) := by
  cases fuel with
  | zero => exact .inl (readMaster_zero opts Slot.target _ ext d)
  | succ fuel =>
    by_cases hdeep : maxDepth < ext.depth
    · exact .inl (readMaster_deep opts Slot.target _ hdeep d)
    rw [readMaster_succ opts Slot.target (Nat.le_of_not_lt hdeep)]
    have hfit : ∀ E ∈ ext.stop, d.source.position + inner.bytes.length ≤ E := by
      intro E hE
      simp only [hstop, Option.mem_def, Option.some.injEq] at hE
      omega
    rcases hinner fuel [] ext d rest htop hs hfit with hfail | ⟨fuel', acc', heq⟩
    · exact .inl hfail
    rw [heq]
    cases fuel' with
    | zero => exact .inl (readChildren_zero opts Slot.target _ ext none _)
    | succ fuel' =>
      exact .inr ⟨acc', readChildren_exhausted opts Slot.target hstop (by simp [advance])⟩

variable {opts} {mopts : MarshalOptions}

/-- Reading the header of an element as the encoder wrote it, with the element's `n` octets of
data within the master being read: the reading fails, or it takes the header as written and goes on
to read the element, whose data does not overrun the master. -/
theorem readChildren_written {e : Element} {n : Nat} {hd : Output} (fuel : Nat) (acc : ElementMap)
    (ext : Extent) {d : Decoder} {rest : Bytes} (hh : Marshal.header mopts e (some n) {} = (hd, none))
    (hs : d.source.ahead = hd.bytes ++ rest)
    (hfit : ∀ E ∈ ext.stop, d.source.position + hd.bytes.length + n ≤ E) :
    Fails ((readChildren opts Slot.target (fuel + 1) (.map acc) ext none).run d) ∨
      overruns ext.stop (some (d.source.position + hd.bytes.length + n)) = false ∧
      (readChildren opts Slot.target (fuel + 1) (.map acc) ext none).run d =
        (readElement opts Slot.target (fun t p => readChildren opts Slot.target fuel t ext p)
            (readMaster opts Slot.target fuel) (skipElement opts fuel) (.map acc) ext
            ⟨e.id, some e, some n, hd.bytes.length⟩).run
          { d with source := { d.source with ahead := rest,
                                             position := d.source.position + hd.bytes.length } } := by
  obtain ⟨sz, hsz, hhd⟩ := Marshal.header_ok hh
  have hpos := e.idBytes_length_pos
  have hlen : hd.bytes.length = e.idBytes.length + sz.length := by rw [hhd, List.length_append]
  have hstart : ext.stop.any (fun E => decide (d.source.position ≥ E)) = false :=
    start_of_fits (fun E hE => by have := hfit E hE; omega) (by omega : 0 < hd.bytes.length)
  rcases Header.read_written e hsz (show d.source.ahead = e.idBytes ++ sz ++ rest by rw [hs, hhd])
    with ⟨err, s', hread⟩ | hread
  · exact .inl (readChildren_header_error opts Slot.target hstart hread)
  refine .inr ⟨overruns_of_fits hfit, ?_⟩
  rw [readChildren_header opts Slot.target hstart hread, hlen]

/-- A scalar written as its header and its payload reads back in one step: the header as written,
then the payload whole. -/
theorem readsBack_scalar {e : Element} {hd : Output} {data : Bytes} (hm : e.isMaster = false)
    (hh : Marshal.header mopts e (some data.length) {} = (hd, none)) {w : Output}
    (hbytes : w.bytes = hd.bytes ++ data)
    (hrecs : w.records = [⟨e, 0, hd.bytes.length, some data.length⟩]) : ReadsBack opts w := by
  intro fuel acc ext d rest htop hs hfit
  cases fuel with
  | zero => exact .inl (readChildren_zero opts Slot.target _ ext none d)
  | succ fuel =>
  rw [hbytes] at hs hfit
  simp only [List.length_append] at hfit
  rcases readChildren_written fuel acc ext hh (hs.trans (List.append_assoc _ _ _))
      (fun E hE => by have := hfit E hE; omega) with hfail | ⟨hover, hrun⟩
  · exact .inl hfail
  rcases hp : (Payload.read opts e.dataType data.length).run
      { d.source with ahead := data ++ rest, position := d.source.position + hd.bytes.length }
    with ⟨err | v, s₂⟩
  · refine .inl ⟨.context (.reading e) err, ?_⟩
    rw [hrun, readElement_scalar_error opts Slot.target rfl rfl rfl hover htop
      (Slot.target_select_map acc e) hm hp]
  · have hs₂ := (Payload.takes_read opts e.dataType data.length).run_eq hp rfl rfl
    refine .inr ⟨fuel, (acc.push e (Value.fresh e)).setLast e v, ?_⟩
    rw [hrun, readElement_scalar opts Slot.target rfl rfl rfl hover htop (Slot.target_select_map acc e)
        hm hp (Slot.target_assign_map _ e v) rfl, hs₂, hrecs, hbytes]
    simp [advance, Record.shift, Nat.add_assoc]

/-- A master written with a known size, as its header and then its children, reads back in one
step when its children do: the header as written, then the children, to the end of its data. -/
theorem readsBack_master {e : Element} {hd inner : Output} (hm : e.isMaster = true)
    (hh : Marshal.header mopts e (some inner.bytes.length) {} = (hd, none))
    (hinner : ReadsBack opts inner) {w : Output} (hbytes : w.bytes = hd.bytes ++ inner.bytes)
    (hrecs : w.records = ⟨e, 0, hd.bytes.length, some inner.bytes.length⟩ ::
      inner.records.map (Record.shift hd.bytes.length)) : ReadsBack opts w := by
  intro fuel acc ext d rest htop hs hfit
  cases fuel with
  | zero => exact .inl (readChildren_zero opts Slot.target _ ext none d)
  | succ fuel =>
  rw [hbytes] at hs hfit
  simp only [List.length_append] at hfit
  rcases readChildren_written fuel acc ext hh (hs.trans (List.append_assoc _ _ _))
      (fun E hE => by have := hfit E hE; omega) with hfail | ⟨hover, hrun⟩
  · exact .inl hfail
  rcases readMaster_readsBack opts hinner fuel
      ⟨some (d.source.position + hd.bytes.length + inner.bytes.length), false, ext.depth + 1⟩
      (d := { source := { d.source with ahead := inner.bytes ++ rest,
                                        position := d.source.position + hd.bytes.length },
              records := d.records ++ [⟨e, d.source.position + hd.bytes.length - hd.bytes.length,
                hd.bytes.length, some inner.bytes.length⟩] }) rfl rfl rfl with ⟨err, herr⟩ | ⟨acc', hchild⟩
  · refine .inl ⟨.context (.reading e) err, ?_⟩
    rw [hrun, readElement_master_error opts Slot.target rfl rfl rfl hover htop
      (Slot.target_select_map acc e) hm (Slot.target_enter_fresh acc hm) (Prod.ext (Prod.ext rfl herr) rfl)]
  · refine .inr ⟨fuel, (acc.push e (Value.fresh e)).setLast e (.master acc'), ?_⟩
    rw [hrun, readElement_master opts Slot.target rfl rfl rfl hover htop (Slot.target_select_map acc e) hm
        (Slot.target_enter_fresh acc hm) hchild (Slot.target_finish _) rfl, Slot.target_close_map,
      hrecs, hbytes, List.map_cons, Record.map_shift_shift]
    simp [advance, Record.shift, Nat.add_assoc]

end Replaying

/-- Records of known size stay so when moved. -/
theorem known_of_shift {rs : List Record} {d : Nat}
    (h : ∀ r ∈ rs.map (Record.shift d), r.size.isSome) : ∀ r ∈ rs, r.size.isSome :=
  fun r hr => h (r.shift d) (List.mem_map_of_mem hr)

mutual
/-- A field written alone, with nothing in it streamed, reads back from wherever it lies. -/
theorem field_readsBack (opts : DecodeOptions) (mopts : MarshalOptions) (depth : Nat) (tag : Tag) :
    ∀ (v : View) (w : Output), Marshal.field mopts depth tag v {} = (w, none) →
      (∀ r ∈ w.records, r.size.isSome) → ReadsBack opts w
  | .absent z, w, h, _ => by
    rw [Marshal.field_absent] at h
    obtain ⟨rfl, -⟩ := Prod.mk.inj h
    exact readsBack_empty opts
  | .scalar x z, w, h, _ => by
    cases homit : tag.omitEmpty && z
    · obtain ⟨data, hd, hm, -, hh, hbytes, hrecs⟩ := Marshal.field_scalar_layout homit h
      exact readsBack_scalar hm hh hbytes hrecs
    · obtain rfl := Marshal.field_omitted_alone h homit
      exact readsBack_empty opts
  | .master fs z, w, h, hknown => by
    cases homit : tag.omitEmpty && z
    · obtain ⟨hm, -, hd, inner, hinner, hh, hbytes, hrecs⟩ := Marshal.field_master_layout homit h
      rw [hrecs] at hknown
      -- the master's own record has a known size, so it was buffered
      have hsize : Marshal.masterSize tag inner = some inner.bytes.length := by
        have hself := hknown _ List.mem_cons_self
        by_cases hu : tag.size = .unknown
        · simp [Marshal.masterSize, hu] at hself
        · exact if_neg hu
      rw [hsize] at hh hrecs
      exact readsBack_master hm hh
        (fields_readsBack opts mopts (depth + 1) fs inner hinner
          (known_of_shift fun r hr => hknown r (List.mem_cons_of_mem _ hr))) hbytes hrecs
    · obtain rfl := Marshal.field_omitted_alone h homit
      exact readsBack_empty opts
  | .repeated items z, w, h, hknown => by
    cases homit : tag.omitEmpty && z
    · unfold Marshal.field at h
      simp only [View.zero, homit, Bool.false_eq_true, if_false] at h
      exact repeated_readsBack opts mopts depth tag items w h hknown
    · obtain rfl := Marshal.field_omitted_alone h homit
      exact readsBack_empty opts

/-- Fields written one after another, with nothing in them streamed, read back from wherever they
lie. -/
theorem fields_readsBack (opts : DecodeOptions) (mopts : MarshalOptions) (depth : Nat) :
    ∀ (fs : List (Tag × View)) (o : Output), Marshal.fields mopts depth fs {} = (o, none) →
      (∀ r ∈ o.records, r.size.isSome) → ReadsBack opts o
  | [], o, h, _ => by
    obtain ⟨rfl, -⟩ := Prod.mk.inj h
    exact readsBack_empty opts
  | (tag, v) :: rest, o, h, hknown => by
    obtain ⟨w, o', hw, hrest, rfl⟩ := Marshal.fields_cons_eq h
    rw [Output.records_append] at hknown
    exact (field_readsBack opts mopts depth tag v w hw
        fun r hr => hknown r (List.mem_append_left _ hr)).append opts (Marshal.field_alone_sized hw)
      (fields_readsBack opts mopts depth rest o' hrest
        (known_of_shift fun r hr => hknown r (List.mem_append_right _ hr)))

/-- Items written one after another under one tag, with nothing in them streamed, read back from
wherever they lie. -/
theorem repeated_readsBack (opts : DecodeOptions) (mopts : MarshalOptions) (depth : Nat) (tag : Tag) :
    ∀ (items : List View) (o : Output), Marshal.repeated mopts depth tag items {} = (o, none) →
      (∀ r ∈ o.records, r.size.isSome) → ReadsBack opts o
  | [], o, h, _ => by
    obtain ⟨rfl, -⟩ := Prod.mk.inj h
    exact readsBack_empty opts
  | v :: vs, o, h, hknown => by
    obtain ⟨w, o', hw, hrest, rfl⟩ := Marshal.repeated_cons_eq h
    rw [Output.records_append] at hknown
    exact (field_readsBack opts mopts depth tag v w hw
        fun r hr => hknown r (List.mem_append_left _ hr)).append opts (Marshal.field_alone_sized hw)
      (repeated_readsBack opts mopts depth tag vs o' hrest
        (known_of_shift fun r hr => hknown r (List.mem_append_right _ hr)))
end

/-- A document encoded with nothing streamed, decoded into a map: a decoding that ends without
error notes exactly the records the encoder reported, whatever the decoder allows. -/
theorem unmarshal_records_eq {mopts : MarshalOptions} {doc : List (Tag × View)} {o : Output}
    (hrun : Marshal.run mopts doc = (o, none)) (hknown : ∀ r ∈ o.records, r.size.isSome)
    {opts : DecodeOptions} {t : Slot} {outcome : Outcome} {d : Decoder}
    (hok : (unmarshal opts Slot.target (Slot.map [])).run (ofSource (Source.ofBytes o.bytes)) =
      ((t, .ok outcome), d)) :
    d.records = o.records := by
  have hback := fields_readsBack opts mopts 0 doc o hrun hknown
  obtain ⟨f, hbudget⟩ : ∃ f, budget (ofSource (Source.ofBytes o.bytes)) = f + 1 :=
    ⟨budget (ofSource (Source.ofBytes o.bytes)) - 1, by simp only [budget, maxDepth]; omega⟩
  rw [unmarshal_run, hbudget, readMaster_succ opts Slot.target (Nat.zero_le _)] at hok
  rcases hback f [] ⟨none, false, 0⟩ (ofSource (Source.ofBytes o.bytes)) [] rfl
      (List.append_nil _).symm (fun E hE => by cases hE) with ⟨err, herr⟩ | ⟨f', acc, heq⟩
  · rw [herr] at hok
    cases hok
  rw [heq] at hok
  cases f' with
  | zero =>
    obtain ⟨err, herr⟩ := readChildren_zero opts Slot.target (Slot.map acc) ⟨none, false, 0⟩ none
      ((ofSource (Source.ofBytes o.bytes)).advance [] o.bytes.length
        (o.records.map (Record.shift (ofSource (Source.ofBytes o.bytes)).source.position)))
    rw [herr] at hok
    cases hok
  | succ f' =>
    rw [readChildren_eof opts Slot.target rfl (Header.read_end rfl rfl)] at hok
    obtain ⟨-, rfl⟩ := Prod.mk.inj hok
    have hzero : Record.shift 0 = id := funext fun r => rfl
    simp [advance, ofSource, Source.ofBytes, hzero]

end Decoder

namespace Sink

/-- The records of an encoding describe its output. For every document that a sink takes whole,
the count returned is the number of octets appended, and the records describe those octets: one
record per element written, in the order they are written, each element before the elements
inside it, of unknown size exactly for the masters streamed under the unknown size
(`View.fieldsWritten`); the header of each record's element stands at its position, counted from
the start of the encoding, and spans its header length, a known size of data follows it, and
each later record starts inside the data of an earlier one, ending by the end of that data, or
after that data (`Described`), so the records come in the order of the output. When no element is streamed, a decoder that reads those octets
into a map without error, whatever it allows, reports exactly the same records. -/
theorem records_describe_output (s : Sink) (opts : MarshalOptions) (doc : List (Tag × View))
    (s' : Sink) (n : Nat) (recs : List Record) (h : s.marshal opts doc = (s', .ok (n, recs))) :
    ∃ out, s'.written = s.written ++ out ∧ n = out.length ∧
      recs.map Record.key = View.fieldsWritten doc ∧ Described opts out recs ∧
      recs.Pairwise (fun r q => r.position < q.position) ∧
      ((∀ k ∈ View.fieldsWritten doc, k.2 = false) →
        ∀ (dopts : DecodeOptions) (t : Slot) (outcome : Outcome) (d : Decoder),
          (Decoder.unmarshal dopts Slot.target (Slot.map [])).run
              (Decoder.ofSource (Source.ofBytes out)) = ((t, .ok outcome), d) →
          d.records = recs) := by
  obtain ⟨o, ho, hw, hn, rfl⟩ := marshal_ok_records h
  obtain ⟨hdesc, hkeys⟩ := Marshal.fields_described opts 0 doc o ho
  refine ⟨o.bytes, hw, hn, hkeys, hdesc, hdesc.ordered, fun hstreamed dopts t outcome d hok => ?_⟩
  have hknown : ∀ r ∈ o.records, r.size.isSome := by
    intro r hr
    have hflag := hstreamed r.key (by rw [← hkeys]; exact List.mem_map_of_mem hr)
    simpa [Record.key] using hflag
  exact Decoder.unmarshal_records_eq ho hknown hok

/-- A cluster with a timecode and a zero previous size, which is left out. -/
def timedCluster : View :=
  .master [({ element := .prevSize, omitEmpty := true }, .scalar (.uint 0) true),
    (Tag.plain .timecode, .scalar (.uint 2) false)] false

/-- Two such clusters, one after the other. -/
def twoClusters : List (Tag × View) :=
  [(Tag.plain .cluster, timedCluster), (Tag.plain .cluster, timedCluster)]

/-- The records of two clusters written into an empty sink: each cluster's identifier where its
record says, the second one's at octet 8, and each timecode inside its cluster's data. -/
theorem two_clusters_recorded :
    ({} : Sink).marshal {} twoClusters =
      ({ written := [0x1F, 0x43, 0xB6, 0x75, 0x83, 0xE7, 0x81, 0x02,
                     0x1F, 0x43, 0xB6, 0x75, 0x83, 0xE7, 0x81, 0x02] },
        .ok (16, [⟨.cluster, 0, 5, some 3⟩, ⟨.timecode, 5, 2, some 1⟩, ⟨.cluster, 8, 5, some 3⟩,
          ⟨.timecode, 13, 2, some 1⟩])) ∧
    ∃ out, [0x1F, 0x43, 0xB6, 0x75, 0x83, 0xE7, 0x81, 0x02,
        0x1F, 0x43, 0xB6, 0x75, 0x83, 0xE7, 0x81, 0x02] = ([] : Bytes) ++ out ∧ 16 = out.length ∧
      ([⟨.cluster, 0, 5, some 3⟩, ⟨.timecode, 5, 2, some 1⟩, ⟨.cluster, 8, 5, some 3⟩,
          ⟨.timecode, 13, 2, some 1⟩] : List Record).map Record.key = View.fieldsWritten twoClusters ∧
      Described {} out [⟨.cluster, 0, 5, some 3⟩, ⟨.timecode, 5, 2, some 1⟩,
        ⟨.cluster, 8, 5, some 3⟩, ⟨.timecode, 13, 2, some 1⟩] ∧
      ([⟨.cluster, 0, 5, some 3⟩, ⟨.timecode, 5, 2, some 1⟩, ⟨.cluster, 8, 5, some 3⟩,
          ⟨.timecode, 13, 2, some 1⟩] : List Record).Pairwise (fun r q => r.position < q.position) ∧
      ((∀ k ∈ View.fieldsWritten twoClusters, k.2 = false) →
        ∀ (dopts : DecodeOptions) (t : Slot) (outcome : Outcome) (d : Decoder),
          (Decoder.unmarshal dopts Slot.target (Slot.map [])).run
              (Decoder.ofSource (Source.ofBytes out)) = ((t, .ok outcome), d) →
          d.records = [⟨.cluster, 0, 5, some 3⟩, ⟨.timecode, 5, 2, some 1⟩,
            ⟨.cluster, 8, 5, some 3⟩, ⟨.timecode, 13, 2, some 1⟩]) := by
  have h : ({} : Sink).marshal {} twoClusters =
      ({ written := [0x1F, 0x43, 0xB6, 0x75, 0x83, 0xE7, 0x81, 0x02,
                     0x1F, 0x43, 0xB6, 0x75, 0x83, 0xE7, 0x81, 0x02] },
        .ok (16, [⟨.cluster, 0, 5, some 3⟩, ⟨.timecode, 5, 2, some 1⟩, ⟨.cluster, 8, 5, some 3⟩,
          ⟨.timecode, 13, 2, some 1⟩])) := rfl
  exact ⟨h, records_describe_output {} {} twoClusters _ 16 _ h⟩

end Sink

end Ebml
