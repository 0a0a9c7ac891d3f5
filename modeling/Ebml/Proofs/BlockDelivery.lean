import Ebml.Proofs.ClusterStreams
import Ebml.Proofs.Advancing
import Ebml.Proofs.Decoding
import Ebml.Proofs.Vint
import Ebml.Proofs.Payload

/-!
# Delivering the blocks of a stream

The second stage of reading a block stream, followed over any octets that read as clusters
(`ClustersOctets`), delivers exactly what `deliverAll` says of the stream's blocks. A reading of
children is followed step by step through `Decoder.Passes`: a scalar, a block group and a whole
cluster each read as the octets say, and the clusters one after another at the top level. The
main statement, `readStream_delivers_blocks`, puts the two stages together.
-/

namespace Ebml

/-! ## Lengths of element octets -/

section Lengths

variable {opts : DecodeOptions}

/-- An element header takes two octets or more. -/
theorem HeadOctets.two_le {e : Element} {size : Option Nat} {bs : Bytes}
    (h : HeadOctets opts e size bs) : 2 ≤ bs.length := by
  obtain ⟨id, hr⟩ := h
  have := Header.read_takes_two (hr (Source.ofBytes bs) [] (by simp [Source.ofBytes]))
  simpa [Source.ofBytes] using this

theorem ScalarOctets.two_le {e : Element} {v : Value} {bs : Bytes} (h : ScalarOctets opts e v bs) :
    2 ≤ bs.length := by
  obtain ⟨head, data, rfl, hhead, -⟩ := h
  have := hhead.two_le
  simp only [List.length_append]
  omega

theorem MasterOctets.two_le {e : Element} {sized : Bool} {body bs : Bytes}
    (h : MasterOctets opts e sized body bs) : 2 ≤ bs.length := by
  obtain ⟨head, rfl, hhead⟩ := h
  have := hhead.two_le
  simp only [List.length_append]
  omega

/-- Elements of two octets or more: as many of them as half their octets at most. -/
theorem two_mul_length_le_of_forall₂ {α : Type} {R : α → Bytes → Prop} {xs : List α}
    {parts : List Bytes} (h : List.Forall₂ R xs parts) (htwo : ∀ x p, R x p → 2 ≤ p.length) :
    2 * xs.length ≤ parts.flatten.length := by
  induction h with
  | nil => simp
  | cons hr _ ih =>
    have := htwo _ _ hr
    simp only [List.length_cons, List.flatten_cons, List.length_append]
    omega

/-- A header: the identifier of the element, then octets that read as its size. -/
theorem HeadOctets.of_idBytes (e : Element) {size : Option Nat} {sz : Bytes}
    (hid : 4 ≤ opts.maxIdLength)
    (hsize : ∀ (s : Source) (rest : Bytes), s.ahead = sz ++ rest →
      (Vint.readUnsigned opts.maxSizeLength).run s =
        (.ok (size, sz.length), { s with ahead := rest, position := s.position + sz.length })) :
    HeadOctets opts e size (e.idBytes ++ sz) :=
  ⟨e.id, fun _ rest hs => by
    rw [List.length_append]
    exact Header.read_idBytes e hid (hsize · rest) (by rw [hs, List.append_assoc])⟩

/-- A header written for a known size reads as the element's header. -/
theorem HeadOctets.of_encode (e : Element) {n : Nat} {minLen : Option Nat} {maxLen : Nat}
    {sz : Bytes} (hid : 4 ≤ opts.maxIdLength) (hsz : Vint.encode (some n) minLen maxLen = .ok sz)
    (hmax : min maxLen 8 ≤ opts.maxSizeLength) : HeadOctets opts e (some n) (e.idBytes ++ sz) :=
  HeadOctets.of_idBytes e hid fun _ _ hs => Vint.readUnsigned_encode hsz hmax hs

/-- A header written for the unknown size, at a width the reader allows, reads as the element's
header of unknown size. -/
theorem HeadOctets.of_unknown (e : Element) {k : Nat} (hid : 4 ≤ opts.maxIdLength) (h1 : 1 ≤ k)
    (h8 : k ≤ 8) (hk : k ≤ opts.maxSizeLength) :
    HeadOctets opts e none (e.idBytes ++ Vint.withMarker k (Vint.allOnes k)) := by
  have hlen : (Vint.withMarker k (Vint.allOnes k)).length = k := Octets.length_ofNat _ _
  refine HeadOctets.of_idBytes e hid fun _ _ hs => ?_
  rw [Vint.readUnsigned_marked h1 h8 hk (Vint.allOnes_lt k) hs, if_pos rfl, hlen]

/-- A value written by the payload encoder, under a header written for its length, reads as the
element's value. -/
theorem ScalarOctets.of_encode {e : Element} {v : Value} (hv : v.Restorable e) {data : Bytes}
    (hdata : Payload.encode e v .natural = .ok data) (hlen : data.length ≤ Vint.maxUnsigned)
    (hlimit : data.length ≤ opts.allocationLimit) (hid : 4 ≤ opts.maxIdLength)
    {minLen : Option Nat} {maxLen : Nat} {sz : Bytes}
    (hsz : Vint.encode (some data.length) minLen maxLen = .ok sz)
    (hmax : min maxLen 8 ≤ opts.maxSizeLength) : ScalarOctets opts e v (e.idBytes ++ sz ++ data) :=
  ⟨_, data, rfl, HeadOctets.of_encode e hid hsz hmax, fun _ _ hs =>
    Payload.read_encode hv hdata hlen hlimit hs⟩

end Lengths

namespace Decoder

/-! ## Readings that pass over octets -/

section Passing

variable {τ : Type} (opts : DecodeOptions) (T : Target τ)

/-- Reading children from `t`, with `m` more units of fuel than `fuel`, over the `n` octets
ahead of `rest`: it goes on after them from `t'` with `fuel`, or, where an error is given, stops
with it and leaves `t'`. -/
def Passes (m : Nat) (t : τ) (ext : Extent) (d : Decoder) (n : Nat) (rest : Bytes) (fuel : Nat)
    (t' : τ) : Option Error → Prop
  | none => ∃ recs, (readChildren opts T (fuel + m) t ext none).run d =
      (readChildren opts T fuel t' ext none).run (d.advance rest n recs)
  | some err => ∃ d', (readChildren opts T (fuel + m) t ext none).run d = ((t', .error err), d')

variable {opts T}

/-- A reading that passes over some octets and goes on, then over more octets. -/
theorem Passes.trans {m₁ m₂ n₁ fuel : Nat} {t t₁ t₂ : τ} {ext : Extent} {d : Decoder}
    {bs rest : Bytes} {recs : List Record} {err : Option Error}
    (h₁ : (readChildren opts T (fuel + m₂ + m₁) t ext none).run d =
      (readChildren opts T (fuel + m₂) t₁ ext none).run (d.advance (bs ++ rest) n₁ recs))
    (h₂ : Passes opts T m₂ t₁ ext (d.advance (bs ++ rest) n₁ recs) bs.length rest fuel t₂ err) :
    Passes opts T (m₁ + m₂) t ext d (n₁ + bs.length) rest fuel t₂ err := by
  have hfuel : fuel + (m₁ + m₂) = fuel + m₂ + m₁ := by omega
  cases err with
  | none =>
    obtain ⟨recs', h2⟩ := h₂
    exact ⟨recs ++ recs', by rw [hfuel, h₁, h2, advance_advance]⟩
  | some err =>
    obtain ⟨d', h2⟩ := h₂
    exact ⟨d', by rw [hfuel, h₁, h2]⟩

/-- A reading that stops stops whatever follows. -/
theorem Passes.stop {m₁ m₂ n n' fuel : Nat} {t t' : τ} {ext : Extent} {d : Decoder}
    {rest rest' : Bytes} {err : Error} (h : Passes opts T m₁ t ext d n rest (fuel + m₂) t' (some err)) :
    Passes opts T (m₁ + m₂) t ext d n' rest' fuel t' (some err) := by
  obtain ⟨d', h⟩ := h
  exact ⟨d', by rw [show fuel + (m₁ + m₂) = fuel + m₂ + m₁ by omega, h]⟩

/-- A reading over no octets. -/
theorem passes_nil {fuel : Nat} {t : τ} {ext : Extent} {d : Decoder} {rest : Bytes}
    (hs : d.source.ahead = rest) : Passes opts T 0 t ext d 0 rest fuel t none :=
  ⟨[], by rw [Nat.add_zero, advance_zero hs]⟩

variable (opts T)

/-- Children read at octets that start with a header: the header is read, and then the element
it starts, from the octets after it. -/
theorem readChildren_headOctets (fuel : Nat) (t : τ) (ext : Extent) {d : Decoder} {e : Element}
    {size : Option Nat} {head rest : Bytes} (hh : HeadOctets opts e size head)
    (hs : d.source.ahead = head ++ rest)
    (hstart : ext.stop.any (fun E => decide (d.source.position ≥ E)) = false) :
    ∃ id, (readChildren opts T (fuel + 1) t ext none).run d =
      (readElement opts T (fun t p => readChildren opts T fuel t ext p) (readMaster opts T fuel)
        (skipElement opts fuel) t ext ⟨id, some e, size, head.length⟩).run
        (d.advance rest head.length []) := by
  obtain ⟨id, hr⟩ := hh
  refine ⟨id, ?_⟩
  rw [readChildren_header opts T hstart (hr d.source rest hs)]
  simp [advance]

/-- A scalar read over its octets, in one step: stored, or refused by its field. -/
theorem passes_scalar {t u t' : τ} {ext : Extent} {d : Decoder} {e : Element} {v : Value}
    {tag : Tag} {bs rest : Bytes} {err : Option Error} (hoct : ScalarOctets opts e v bs)
    (hs : d.source.ahead = bs ++ rest) (hfit : ∀ E ∈ ext.stop, d.source.position + bs.length ≤ E)
    (hkeep : (ext.unknownTop && e.isTopLevel) = false) (hsel : T.select t e = some (tag, u))
    (hstop : tag.stop = false) (hm : e.isMaster = false) (hassign : T.assign u e v = (t', err))
    (fuel : Nat) :
    Passes opts T 1 t ext d bs.length rest fuel t' (err.map (.context (.assigning e))) := by
  have hlen := hoct.two_le
  obtain ⟨head, data, rfl, hhead, hdata⟩ := hoct
  rw [List.append_assoc] at hs
  have hstart := start_of_fits hfit (by omega)
  obtain ⟨id, hrun⟩ := readChildren_headOctets opts T fuel t ext hhead hs hstart
  set d₁ := d.advance (data ++ rest) head.length [] with hd₁
  have hread := hdata d₁.source rest rfl
  have hp : d₁.source.position - head.length = d.source.position := by simp [d₁, advance]
  have hover : overruns ext.stop (some (d₁.source.position + data.length)) = false :=
    overruns_of_fits fun E hE => by
      have := hfit E hE
      simp only [d₁, advance, List.length_append] at this ⊢
      omega
  have hdecoder : (⟨{ d₁.source with ahead := rest, position := d₁.source.position + data.length },
      d₁.records ++ [⟨e, d.source.position, head.length, some data.length⟩]⟩ : Decoder) =
      d.advance rest (head ++ data).length [⟨e, d.source.position, head.length, some data.length⟩] := by
    simp [d₁, advance, Nat.add_assoc]
  cases err with
  | none =>
    refine ⟨[⟨e, d.source.position, head.length, some data.length⟩], ?_⟩
    rw [hrun, readElement_scalar_of_kept opts T rfl rfl hp hover hkeep hsel hm hread hassign hstop,
      hdecoder]
  | some err =>
    exact ⟨_, by rw [hrun, readElement_refused_of_kept opts T rfl rfl hp hover hkeep hsel hm hread
      hassign]⟩

end Passing

end Decoder

namespace Matroska

namespace Feed

/-! ## Emitting a block -/

theorem timestamp_eq (p : PlacedBlock) :
    timestamp p.clusterTimecode p.block.timecode = if p.fits then some p.timestamp else none := by
  have h0 : (0 : Int) ≤ maxTimestamp := by decide
  have ht : (p.clusterTimecode.toNat : Int) + p.block.timecode.toInt = p.timestamp := rfl
  simp only [timestamp, ht, PlacedBlock.fits, ← Int.le_toNat h0, Bool.and_eq_true,
    decide_eq_true_eq]

/-- The first track of a number in a list of tracks with their places. -/
theorem find?_zipIdx (x : UInt64) : ∀ (numbers : List UInt64) (k : Nat),
    (numbers.zipIdx k).find? (·.1 == x) =
      if numbers.contains x then some (x, numbers.idxOf x + k) else none
  | [], _ => rfl
  | a :: as, k => by
    rw [List.zipIdx_cons, List.find?_cons, find?_zipIdx x as (k + 1)]
    by_cases h : a = x
    · subst h
      simp
    · have h' : (a == x) = false := by simp [h]
      simp [h', Ne.symm h, h, Nat.add_assoc, Nat.add_comm 1 k]

variable {numbers : List UInt64} {f : Feed} {em : Emitter} {p : PlacedBlock}

/-- An emitter of every track, none of them closed: a block whose track is listed and whose
timestamp fits delivers its frames, and a block of a track not listed is skipped. -/
theorem emit_ok {fs : List (Nat × Frame)} (hclosed : f.closed = [])
    (htracks : em.tracks = numbers.zipIdx) (htc : em.clusterTimecode = p.clusterTimecode)
    (h : p.outcome numbers = .ok fs) :
    f.emit em p.block p.keyframe = ({ f with delivered := f.delivered ++ fs }, em, none) := by
  unfold emit
  rw [htracks, find?_zipIdx, htc, timestamp_eq]
  simp only [PlacedBlock.outcome, PlacedBlock.listed, List.contains_iff_mem, List.isEmpty_iff]
    at h ⊢
  by_cases hl : p.block.track ∈ numbers
  · have hopen : numbers.idxOf p.block.track ∉ f.closed := by simp [hclosed]
    have hne : numbers.zipIdx ≠ [] := by simp [List.ne_nil_of_mem hl]
    by_cases hf : p.fits = true
    · simp only [hl, hf, if_true, Except.ok.injEq] at h
      subst h
      simp only [hl, hf, if_true, hopen, if_false, Nat.add_zero]
      by_cases he : p.block.frames = []
      · simp [PlacedBlock.frames, he, htracks, hne]
      · simp [PlacedBlock.frames, he, htracks, hne]
    · simp [hl, hf] at h
  · by_cases hn : numbers = []
    · simp [hn] at h
    · simp only [hl, hn, if_false, Except.ok.injEq] at h
      subst h
      simp [hl, hn]

/-- An emitter of every track: a block whose track is listed but whose timestamp does not fit
is refused, and so is every block once no track is listed. -/
theorem emit_error {err : Error} (htracks : em.tracks = numbers.zipIdx)
    (htc : em.clusterTimecode = p.clusterTimecode) (h : p.outcome numbers = .error err) :
    f.emit em p.block p.keyframe = (f, em, some err) := by
  unfold emit
  rw [htracks, find?_zipIdx, htc, timestamp_eq]
  simp only [PlacedBlock.outcome, PlacedBlock.listed, List.contains_iff_mem, List.isEmpty_iff]
    at h ⊢
  by_cases hl : p.block.track ∈ numbers
  · by_cases hf : p.fits = true
    · simp [hl, hf] at h
    · simp only [hl, hf, if_true, Bool.false_eq_true, if_false, Except.error.injEq] at h
      subst h
      simp [hl, hf]
  · by_cases hn : numbers = []
    · subst hn
      simp only [List.not_mem_nil, ↓reduceIte, Except.error.injEq] at h
      subst h
      simp
    · simp [hl, hn] at h

/-! ## The feed as a target, level by level -/

/-- A feed between the elements that carry blocks, at `level`: every track of `numbers` open in
both emitters and none closed, no block group under way, and the cluster timecode `tc`. -/
structure Ready (numbers : List UInt64) (level : FeedLevel) (tc : UInt64) (f : Feed) : Prop where
  closed : f.closed = []
  tracks : f.emitter.tracks = numbers.zipIdx
  groupTracks : f.group.emitter.tracks = numbers.zipIdx
  level : f.level = level
  timecode : f.emitter.clusterTimecode = tc
  block : f.group.block = none
  priority : f.group.referencePriority = 0

/-- The feed of a stream whose tracks are all open is ready for its first cluster. -/
theorem ready_new (numbers : List UInt64) : (Feed.new numbers []).Ready numbers .stream 0 :=
  ⟨rfl, rfl, rfl, rfl, rfl, rfl, rfl⟩

theorem target_close (parent child : Feed) (e : Element) :
    target.close parent e child = { child with level := parent.level } := rfl

/-- A feed whose level is known is the feed with that level set: the target's matches on the
level then reduce by computation, with no case analysis of the elements. -/
theorem eq_with_level {l : FeedLevel} (hl : f.level = l) : f = { f with level := l } := by
  subst hl
  rfl

theorem target_select_cluster (hl : f.level = .stream) :
    target.select f .cluster = some (.plain .cluster, f) := by
  rewrite [eq_with_level hl]
  rfl

theorem target_enter_cluster (hl : f.level = .stream) :
    target.enter f .cluster = (f, some { f with level := .cluster }) := by
  rewrite [eq_with_level hl]
  rfl

/-- A cluster ends by setting its timecode back to zero. -/
theorem target_finish_cluster (hl : f.level = .cluster) :
    target.finish f = ({ f with emitter := { f.emitter with clusterTimecode := 0 } }, none) := by
  rewrite [eq_with_level hl]
  rfl

/-- A cluster takes its timecode, previous size, position and simple blocks as they are. -/
theorem target_select_clusterScalar (hl : f.level = .cluster) {e : Element}
    (he : e = .timecode ∨ e = .prevSize ∨ e = .position ∨ e = .simpleBlock) :
    target.select f e = some (.plain e, f) := by
  rewrite [eq_with_level hl]
  rcases he with rfl | rfl | rfl | rfl <;> rfl

theorem target_assign_timecode (hl : f.level = .cluster) (t : UInt64) :
    target.assign f .timecode (.uint t) =
      ({ f with emitter := { f.emitter with clusterTimecode := t } }, none) := by
  rewrite [eq_with_level hl]
  rfl

theorem target_assign_prevSize (hl : f.level = .cluster) (n : UInt64) :
    target.assign f .prevSize (.uint n) = ({ f with prevSize := n }, none) := by
  rewrite [eq_with_level hl]
  rfl

theorem target_assign_position (hl : f.level = .cluster) (n : UInt64) :
    target.assign f .position (.uint n) = ({ f with position := n }, none) := by
  rewrite [eq_with_level hl]
  rfl

theorem target_assign_simpleBlock (hl : f.level = .cluster) (b : Block) :
    target.assign f .simpleBlock (.block b) = f.emitSimple b := by
  rewrite [eq_with_level hl]
  rfl

/-- A block group starts with the timecode its cluster has. -/
theorem target_select_blockGroup (hl : f.level = .cluster) :
    target.select f .blockGroup = some (.plain .blockGroup, { f with group := { f.group with
      emitter := { f.group.emitter with clusterTimecode := f.emitter.clusterTimecode } } }) := by
  rewrite [eq_with_level hl]
  rfl

theorem target_enter_blockGroup (hl : f.level = .cluster) :
    target.enter f .blockGroup = (f, some { f with level := .group }) := by
  rewrite [eq_with_level hl]
  rfl

theorem target_finish_group (hl : f.level = .group) : target.finish f = f.endGroup := by
  rewrite [eq_with_level hl]
  rfl

end Feed

/-! ## Block groups -/

/-- A group child stored into the fields of the group being read. -/
def GroupState.store (g : GroupState) : GroupChild → GroupState
  | .block b => { g with block := some b }
  | .duration n => { g with blockDuration := n }
  | .priority n => { g with referencePriority := n }
  | .reference n => { g with referenceBlocks := g.referenceBlocks ++ [n] }

/-- A group's fields back to their defaults, with its emitter kept. -/
def GroupState.cleared (g : GroupState) : GroupState :=
  { g with block := none, blockDuration := 0, referencePriority := 0, referenceBlocks := [] }

namespace GroupState

theorem foldl_store_block (gs : List GroupChild) (g : GroupState) :
    (gs.foldl store g).block = (GroupChild.lastBlock gs).or g.block := by
  induction gs generalizing g with
  | nil => simp [GroupChild.lastBlock]
  | cons c gs ih =>
    rw [List.foldl_cons, ih, GroupChild.lastBlock_cons, Option.or_assoc]
    cases c <;> simp [store, GroupChild.block?]

theorem foldl_store_priority (gs : List GroupChild) (g : GroupState) :
    (gs.foldl store g).referencePriority =
      ((gs.filterMap GroupChild.priority?).getLast?).getD g.referencePriority := by
  induction gs generalizing g with
  | nil => simp
  | cons c gs ih =>
    rw [List.foldl_cons, ih]
    cases c <;> simp [store, GroupChild.priority?, List.getLast?_cons]

theorem foldl_store_emitter (gs : List GroupChild) (g : GroupState) :
    (gs.foldl store g).emitter = g.emitter := by
  induction gs generalizing g with
  | nil => rfl
  | cons c gs ih =>
    rw [List.foldl_cons, ih]
    cases c <;> rfl

end GroupState

namespace Feed

variable {f : Feed}

/-- A block group takes its block, duration, reference priority and references, each stored in
its field. -/
theorem target_select_groupChild (hl : f.level = .group) (c : GroupChild) :
    target.select f c.element = some (.plain c.element, f) := by
  rewrite [eq_with_level hl]
  cases c <;> rfl

theorem target_assign_groupChild (hl : f.level = .group) (c : GroupChild) :
    target.assign f c.element c.value = ({ f with group := f.group.store c }, none) := by
  rewrite [eq_with_level hl]
  cases c <;> rfl

/-- A group ends by delivering the block it places through its own emitter: its frames, or the
refusal that stops the stream. Its fields go back to their defaults either way. -/
theorem endGroup_eq (numbers : List UInt64) (gs : List GroupChild) (tc : UInt64)
    (hclosed : f.closed = []) (htracks : f.group.emitter.tracks = numbers.zipIdx)
    (htc : f.group.emitter.clusterTimecode = tc) (hblock : f.group.block = GroupChild.lastBlock gs)
    (hprio : f.group.referencePriority = GroupChild.lastPriority gs) :
    f.endGroup =
      ({ f with
          group := f.group.cleared
          delivered := f.delivered ++ (deliverAll numbers (GroupChild.placed tc gs)).1 },
        (deliverAll numbers (GroupChild.placed tc gs)).2) := by
  unfold endGroup GroupChild.placed
  dsimp only
  rw [hblock]
  cases hb : GroupChild.lastBlock gs with
  | none => simp [deliverAll, GroupState.cleared]
  | some b =>
    cases ho : PlacedBlock.outcome numbers
        ⟨b, GroupChild.lastPriority gs != 0, tc, false⟩ with
    | ok fs =>
      have := emit_ok (f := { f with group := f.group.cleared }) hclosed htracks htc ho
      simp only [Option.map_some, Option.toList_some, deliverAll, ho, List.append_nil, hprio]
      simp only [GroupState.cleared] at this ⊢
      rw [this]
    | error err =>
      have := emit_error (f := { f with group := f.group.cleared }) htracks htc ho
      simp only [Option.map_some, Option.toList_some, deliverAll, ho, hprio, PlacedBlock.refusal,
        Bool.false_eq_true, if_false, List.append_nil]
      simp only [GroupState.cleared] at this ⊢
      rw [this]

end Feed

theorem GroupChild.element_isMaster (c : GroupChild) : c.element.isMaster = false := by
  cases c <;> rfl

section Reading

variable (opts : DecodeOptions)

open Decoder

/-- The children of a block group are read one step each, each stored in its field of the
group. -/
theorem passes_groupChildren {gs : List GroupChild} {parts : List Bytes}
    (h : List.Forall₂ (GroupChild.Octets opts) gs parts) :
    ∀ (f : Feed) (ext : Extent) (d : Decoder) (rest : Bytes) (fuel : Nat), f.level = .group →
      ext.unknownTop = false → d.source.ahead = parts.flatten ++ rest →
      (∀ E ∈ ext.stop, d.source.position + parts.flatten.length ≤ E) →
      Passes opts Feed.target gs.length f ext d parts.flatten.length rest fuel
        { f with group := gs.foldl GroupState.store f.group } none := by
  induction h with
  | nil =>
    intro f ext d rest fuel _ _ hs _
    exact passes_nil hs
  | @cons c bs gs parts hc _ ih =>
    intro f ext d rest fuel hl htop hs hfit
    simp only [List.flatten_cons, List.length_append] at hs hfit ⊢
    rw [List.append_assoc] at hs
    have hfirst := passes_scalar opts Feed.target hc hs (fun E hE => by have := hfit E hE; omega)
      (by rw [htop, Bool.false_and]) (Feed.target_select_groupChild hl c) rfl
      (GroupChild.element_isMaster c) (Feed.target_assign_groupChild hl c) (fuel + gs.length)
    obtain ⟨recs, h1⟩ := hfirst
    have hrest := ih { f with group := f.group.store c } ext
      (d.advance (parts.flatten ++ rest) bs.length recs) rest fuel hl htop
      (by simp [advance]) (fun E hE => by simp only [advance]; have := hfit E hE; omega)
    have := Passes.trans h1 hrest
    rw [Nat.add_comm 1] at this
    exact this

/-- The data of a block group is read into the group, to its end. -/
theorem readMaster_groupChildren {gs : List GroupChild} {parts : List Bytes}
    (h : List.Forall₂ (GroupChild.Octets opts) gs parts) (f : Feed) (hl : f.level = .group)
    (ext : Extent) (hdepth : ext.depth ≤ maxDepth) (htop : ext.unknownTop = false) (d : Decoder)
    (rest : Bytes) (hs : d.source.ahead = parts.flatten ++ rest)
    (hstop : ext.stop = some (d.source.position + parts.flatten.length)) (fuel : Nat) :
    ∃ recs, (readMaster opts Feed.target (fuel + 1 + gs.length + 1) f ext).run d =
      (({ f with group := gs.foldl GroupState.store f.group }, .ok .exhausted),
        d.advance rest parts.flatten.length recs) := by
  rw [readMaster_succ opts _ hdepth]
  obtain ⟨recs, hrun⟩ := passes_groupChildren opts h f ext d rest (fuel + 1) hl htop hs
    (fun E hE => by rw [hstop, Option.mem_some_iff] at hE; omega)
  refine ⟨recs, ?_⟩
  rw [hrun, readChildren_exhausted opts _ hstop (by simp [advance])]

/-- Reading children over octets that place the blocks `ps`, from `f`, with `m` more units of
fuel than `fuel`: the frames of their delivery are delivered, and the reading goes on after the
octets from a feed ready at the cluster timecode `tc'`, or stops with the delivery's refusal. -/
def Delivers (numbers : List UInt64) (ps : List PlacedBlock) (tc' : UInt64) (m : Nat) (f : Feed)
    (ext : Extent) (d : Decoder) (n : Nat) (rest : Bytes) (fuel : Nat) : Prop :=
  ∃ f', f'.delivered = f.delivered ++ (deliverAll numbers ps).1 ∧
    ((deliverAll numbers ps).2 = none → f'.Ready numbers .cluster tc') ∧
    Passes opts Feed.target m f ext d n rest fuel f' (deliverAll numbers ps).2

variable {opts}

/-- Delivering the blocks of some octets, then of the octets after them. -/
theorem Delivers.trans {numbers : List UInt64} {ps₁ ps₂ : List PlacedBlock} {tc₁ tc₂ : UInt64}
    {m₁ m₂ n₁ fuel : Nat} {f : Feed} {ext : Extent} {d : Decoder} {bs rest : Bytes}
    (h₁ : Delivers opts numbers ps₁ tc₁ m₁ f ext d n₁ (bs ++ rest) (fuel + m₂))
    (h₂ : ∀ f₁ recs, f₁.Ready numbers .cluster tc₁ → f₁.delivered = f.delivered ++ (deliverAll numbers ps₁).1 →
      Delivers opts numbers ps₂ tc₂ m₂ f₁ ext (d.advance (bs ++ rest) n₁ recs) bs.length rest fuel) :
    Delivers opts numbers (ps₁ ++ ps₂) tc₂ (m₁ + m₂) f ext d (n₁ + bs.length) rest fuel := by
  obtain ⟨f₁, hdel₁, hready₁, hpass₁⟩ := h₁
  cases herr : (deliverAll numbers ps₁).2 with
  | none =>
    rw [herr] at hpass₁
    obtain ⟨recs, hrun⟩ := hpass₁
    obtain ⟨f₂, hdel₂, hready₂, hpass₂⟩ := h₂ f₁ recs (hready₁ herr) hdel₁
    refine ⟨f₂, ?_, ?_, ?_⟩
    · rw [deliverAll_append_of_none numbers herr, hdel₂, hdel₁, List.append_assoc]
    · rw [deliverAll_append_of_none numbers herr]
      exact hready₂
    · rw [deliverAll_append_of_none numbers herr]
      exact Passes.trans hrun hpass₂
  | some err =>
    rw [herr] at hpass₁
    refine ⟨f₁, ?_, fun h => ?_, ?_⟩
    · rw [deliverAll_append_of_some numbers herr, hdel₁]
    · rw [deliverAll_append_of_some numbers herr, herr] at h
      cases h
    · rw [deliverAll_append_of_some numbers herr, herr]
      exact Passes.stop hpass₁

variable (opts)

/-- A block group is one step of its cluster: its data is read into the group, and the group
ends by delivering the block it places. -/
theorem delivers_blockGroup (numbers : List UInt64) {gs : List GroupChild} {bs : Bytes}
    (hoct : ClusterChild.Octets opts (.blockGroup gs) bs) {tc : UInt64} {f : Feed}
    (hf : f.Ready numbers .cluster tc) {ext : Extent} (hdepth : ext.depth < maxDepth)
    {d : Decoder} {rest : Bytes} (hs : d.source.ahead = bs ++ rest)
    (hfit : ∀ E ∈ ext.stop, d.source.position + bs.length ≤ E) {fuel : Nat}
    (hfuel : gs.length + 2 ≤ fuel) :
    Delivers opts numbers (GroupChild.placed tc gs) tc 1 f ext d bs.length rest fuel := by
  obtain ⟨parts, hparts, head, rfl, hhead⟩ := hoct
  rw [if_pos rfl] at hhead
  have hlen := hhead.two_le
  rw [List.append_assoc] at hs
  obtain ⟨id, hrun⟩ := readChildren_headOctets opts Feed.target fuel f ext hhead hs
    (start_of_fits hfit (by simp only [List.length_append]; omega))
  set d₁ := d.advance (parts.flatten ++ rest) head.length [] with hd₁
  have hp : d₁.source.position - head.length = d.source.position := by simp [d₁, advance]
  have hover : overruns ext.stop (some (d₁.source.position + parts.flatten.length)) = false :=
    overruns_of_fits fun E hE => by
      have := hfit E hE
      simp only [d₁, advance, List.length_append] at this ⊢
      omega
  have hkeep : (ext.unknownTop && Element.blockGroup.isTopLevel) = false := Bool.and_false _
  have hsel := Feed.target_select_blockGroup hf.level
  set f₀ : Feed := { f with group := { f.group with
    emitter := { f.group.emitter with clusterTimecode := f.emitter.clusterTimecode } } } with hf₀
  have henter := Feed.target_enter_blockGroup (f := f₀) hf.level
  obtain ⟨G, rfl⟩ : ∃ G, fuel = G + 1 + gs.length + 1 := ⟨fuel - gs.length - 2, by omega⟩
  obtain ⟨recs, hinner⟩ := readMaster_groupChildren opts hparts { f₀ with level := .group } rfl
    ⟨some (d₁.source.position + parts.flatten.length), false, ext.depth + 1⟩ hdepth rfl
    ⟨d₁.source, d₁.records ++ [⟨.blockGroup, d.source.position, head.length,
      some parts.flatten.length⟩]⟩ rest (by simp [d₁, advance]) rfl G
  set child : Feed := { { f₀ with level := .group } with group := gs.foldl GroupState.store f₀.group }
    with hchild
  have hend := Feed.endGroup_eq numbers gs tc (f := child) hf.closed
    (by simp [hchild, hf₀, GroupState.foldl_store_emitter, hf.groupTracks])
    (by simp [hchild, hf₀, GroupState.foldl_store_emitter, hf.timecode])
    (by simp [hchild, hf₀, GroupState.foldl_store_block, hf.block])
    (by simp [hchild, hf₀, GroupState.foldl_store_priority, hf.priority, GroupChild.lastPriority])
  have hfinish := (Feed.target_finish_group rfl).trans hend
  have hdecoder : ((⟨d₁.source, d₁.records ++ [⟨.blockGroup, d.source.position, head.length,
      some parts.flatten.length⟩]⟩ : Decoder).advance rest parts.flatten.length recs) =
      d.advance rest (head ++ parts.flatten).length
        ([⟨.blockGroup, d.source.position, head.length, some parts.flatten.length⟩] ++ recs) := by
    simp [d₁, advance, Nat.add_assoc]
  refine ⟨{ { child with
      group := child.group.cleared
      delivered := child.delivered ++ (deliverAll numbers (GroupChild.placed tc gs)).1 } with
      level := f₀.level }, rfl, fun _ => ⟨hf.closed, hf.tracks, ?_, hf.level, hf.timecode, rfl, rfl⟩, ?_⟩
  · simp [hchild, hf₀, GroupState.cleared, GroupState.foldl_store_emitter, hf.groupTracks]
  · cases herr : (deliverAll numbers (GroupChild.placed tc gs)).2 with
    | none =>
      rw [herr] at hfinish
      refine ⟨[⟨.blockGroup, d.source.position, head.length, some parts.flatten.length⟩] ++ recs, ?_⟩
      rw [hrun, readElement_master_of_kept opts Feed.target rfl rfl hp hover hkeep hsel rfl henter
        hinner hfinish rfl, hdecoder, Feed.target_close]
    | some err =>
      rw [herr] at hfinish
      exact ⟨_, by rw [hrun, readElement_master_unfinished opts Feed.target rfl rfl hp hover hkeep
        hsel rfl henter hinner hfinish, Feed.target_close]⟩

/-- The timecode a cluster has after one of its children. -/
def ClusterChild.timecodeAfter (tc : UInt64) : ClusterChild → UInt64
  | .timecode t => t
  | _ => tc

theorem ClusterChild.placed_cons (tc : UInt64) (c : ClusterChild) (cs : List ClusterChild) :
    ClusterChild.placed tc (c :: cs) =
      ClusterChild.placed tc [c] ++ ClusterChild.placed (c.timecodeAfter tc) cs := by
  cases c <;> simp [ClusterChild.placed, ClusterChild.timecodeAfter]

/-- A child of a cluster that places no block is stored in one step. -/
theorem delivers_stored (numbers : List UInt64) {c : ClusterChild} {e : Element} {v : Value}
    {f f' : Feed} {tc : UInt64} {ext : Extent} {d : Decoder} {bs rest : Bytes} {fuel : Nat}
    (hplaced : ClusterChild.placed tc [c] = []) (hoct : ScalarOctets opts e v bs)
    (hs : d.source.ahead = bs ++ rest) (hfit : ∀ E ∈ ext.stop, d.source.position + bs.length ≤ E)
    (htop : e.isTopLevel = false) (hsel : Feed.target.select f e = some (.plain e, f))
    (hm : e.isMaster = false) (hassign : Feed.target.assign f e v = (f', none))
    (hdel : f'.delivered = f.delivered) (hready : f'.Ready numbers .cluster (c.timecodeAfter tc)) :
    Delivers opts numbers (ClusterChild.placed tc [c]) (c.timecodeAfter tc) 1 f ext d bs.length rest
      fuel := by
  rw [hplaced]
  exact ⟨f', by simp [deliverAll, hdel], fun _ => hready,
    passes_scalar opts Feed.target hoct hs hfit (by rw [htop, Bool.and_false]) hsel rfl hm hassign
      fuel⟩

/-- A simple block is delivered as soon as it is read. -/
theorem delivers_simpleBlock (numbers : List UInt64) {b : Block} {bs : Bytes}
    (hoct : ScalarOctets opts .simpleBlock (.block b) bs) {tc : UInt64} {f : Feed}
    (hf : f.Ready numbers .cluster tc) {ext : Extent} {d : Decoder} {rest : Bytes}
    (hs : d.source.ahead = bs ++ rest) (hfit : ∀ E ∈ ext.stop, d.source.position + bs.length ≤ E)
    (fuel : Nat) :
    Delivers opts numbers [⟨b, b.keyframe, tc, true⟩] tc 1 f ext d bs.length rest fuel := by
  have hsel := Feed.target_select_clusterScalar hf.level (.inr (.inr (.inr rfl)))
  have hkeep : (ext.unknownTop && Element.simpleBlock.isTopLevel) = false := Bool.and_false _
  cases ho : PlacedBlock.outcome numbers ⟨b, b.keyframe, tc, true⟩ with
  | ok fs =>
    have hemit := Feed.emit_ok (f := f) (p := ⟨b, b.keyframe, tc, true⟩) hf.closed hf.tracks
      hf.timecode ho
    have hassign : Feed.target.assign f .simpleBlock (.block b) =
        ({ f with delivered := f.delivered ++ fs }, none) := by
      rw [Feed.target_assign_simpleBlock hf.level, Feed.emitSimple]
      dsimp only at hemit ⊢
      rw [hemit]
    have hresult : deliverAll numbers [⟨b, b.keyframe, tc, true⟩] = (fs, none) := by
      simp [deliverAll, ho]
    unfold Delivers
    rw [hresult]
    exact ⟨{ f with delivered := f.delivered ++ fs }, rfl, fun _ => ⟨hf.closed, hf.tracks,
      hf.groupTracks, hf.level, hf.timecode, hf.block, hf.priority⟩,
      passes_scalar opts Feed.target hoct hs hfit hkeep hsel rfl rfl hassign fuel⟩
  | error err =>
    have hemit := Feed.emit_error (f := f) (p := ⟨b, b.keyframe, tc, true⟩) hf.tracks hf.timecode ho
    have hassign : Feed.target.assign f .simpleBlock (.block b) = (f, some err) := by
      rw [Feed.target_assign_simpleBlock hf.level, Feed.emitSimple]
      dsimp only at hemit ⊢
      rw [hemit]
    have hresult : deliverAll numbers [⟨b, b.keyframe, tc, true⟩] =
        ([], some (.context (.assigning .simpleBlock) err)) := by
      simp [deliverAll, ho, PlacedBlock.refusal]
    unfold Delivers
    rw [hresult]
    exact ⟨f, by simp, fun h => by simp at h,
      passes_scalar opts Feed.target hoct hs hfit hkeep hsel rfl rfl hassign fuel⟩

/-- One child of a cluster is one step: a timecode sets the cluster's timecode, a previous size
and a position are stored, a simple block is delivered as it is read, and a block group when it
ends. -/
theorem delivers_clusterChild (numbers : List UInt64) {c : ClusterChild} {bs : Bytes}
    (hc : c.Octets opts bs) {tc : UInt64} {f : Feed} (hf : f.Ready numbers .cluster tc)
    {ext : Extent} (hdepth : ext.depth < maxDepth) {d : Decoder} {rest : Bytes}
    (hs : d.source.ahead = bs ++ rest) (hfit : ∀ E ∈ ext.stop, d.source.position + bs.length ≤ E)
    {fuel : Nat} (hfuel : bs.length ≤ fuel) :
    Delivers opts numbers (ClusterChild.placed tc [c]) (c.timecodeAfter tc) 1 f ext d bs.length rest
      fuel := by
  cases c with
  | timecode t =>
    exact delivers_stored opts numbers rfl hc hs hfit rfl
      (Feed.target_select_clusterScalar hf.level (.inl rfl)) rfl
      (Feed.target_assign_timecode hf.level t) rfl
      ⟨hf.closed, hf.tracks, hf.groupTracks, hf.level, rfl, hf.block, hf.priority⟩
  | prevSize n =>
    exact delivers_stored opts numbers rfl hc hs hfit rfl
      (Feed.target_select_clusterScalar hf.level (.inr (.inl rfl))) rfl
      (Feed.target_assign_prevSize hf.level n) rfl
      ⟨hf.closed, hf.tracks, hf.groupTracks, hf.level, hf.timecode, hf.block, hf.priority⟩
  | position n =>
    exact delivers_stored opts numbers rfl hc hs hfit rfl
      (Feed.target_select_clusterScalar hf.level (.inr (.inr (.inl rfl)))) rfl
      (Feed.target_assign_position hf.level n) rfl
      ⟨hf.closed, hf.tracks, hf.groupTracks, hf.level, hf.timecode, hf.block, hf.priority⟩
  | simpleBlock b => exact delivers_simpleBlock opts numbers hc hf hs hfit fuel
  | blockGroup gs =>
    -- a group of `k` children takes two octets or more for its header and each child
    have hlen : 2 * gs.length + 2 ≤ bs.length := by
      obtain ⟨parts, hparts, head, rfl, hhead⟩ := hc
      have := two_mul_length_le_of_forall₂ hparts fun _ _ h => ScalarOctets.two_le h
      have := hhead.two_le
      simp only [List.length_append]
      omega
    have := delivers_blockGroup opts numbers hc hf hdepth hs hfit
      (show gs.length + 2 ≤ fuel by omega)
    simpa [ClusterChild.placed, ClusterChild.timecodeAfter] using this

/-- The children of a cluster are read one step each, delivering the blocks they place in
order, and the reading stops at the first block whose delivery is refused. -/
theorem delivers_clusterChildren (numbers : List UInt64) {cs : List ClusterChild}
    {parts : List Bytes} (h : List.Forall₂ (ClusterChild.Octets opts) cs parts) :
    ∀ (tc : UInt64) (f : Feed) (ext : Extent) (d : Decoder) (rest : Bytes) (fuel : Nat),
      f.Ready numbers .cluster tc → ext.depth < maxDepth → d.source.ahead = parts.flatten ++ rest →
      (∀ E ∈ ext.stop, d.source.position + parts.flatten.length ≤ E) →
      parts.flatten.length ≤ fuel →
      Delivers opts numbers (ClusterChild.placed tc cs) (cs.foldl ClusterChild.timecodeAfter tc)
        cs.length f ext d parts.flatten.length rest fuel := by
  induction h with
  | nil =>
    intro tc f ext d rest fuel hf _ hs _ _
    exact ⟨f, by simp [ClusterChild.placed, deliverAll], fun _ => hf, passes_nil hs⟩
  | @cons c bs cs parts hc _ ih =>
    intro tc f ext d rest fuel hf hdepth hs hfit hfuel
    simp only [List.flatten_cons, List.length_append] at hs hfit hfuel ⊢
    rw [List.append_assoc] at hs
    have hfirst := delivers_clusterChild opts numbers hc hf hdepth hs
      (fun E hE => by have := hfit E hE; omega) (show bs.length ≤ fuel + cs.length by omega)
    have := Delivers.trans hfirst fun f₁ recs hf₁ _ =>
      ih (c.timecodeAfter tc) f₁ ext (d.advance (parts.flatten ++ rest) bs.length recs) rest fuel
        hf₁ hdepth (by simp [advance]) (fun E hE => by simp only [advance]; have := hfit E hE; omega)
        (by omega)
    rw [← ClusterChild.placed_cons, Nat.add_comm 1] at this
    exact this

/-- Every child of a cluster takes two octets or more. -/
theorem ClusterChild.Octets.two_le {c : ClusterChild} {bs : Bytes} (h : c.Octets opts bs) :
    2 ≤ bs.length := by
  cases c with
  | blockGroup gs =>
    obtain ⟨_, _, hm⟩ := h
    exact hm.two_le
  | _ => exact ScalarOctets.two_le h

/-- Where the clusters of a stream are read: the top level, with no end. -/
def topLevel : Extent := ⟨none, false, 0⟩

/-- Reading an element of the top level of a stream into a feed, from its header on, with `fuel`
for the readings that follow. -/
def readTopLevel (fuel : Nat) (f : Feed) (h : Header) : DecodeM (Feed × Except Error MasterEnd) :=
  readElement opts Feed.target (fun t p => readChildren opts Feed.target fuel t topLevel p)
    (readMaster opts Feed.target fuel) (skipElement opts fuel) f topLevel h

/-- A cluster of known size, from its header on: its children are read to the end of its data,
delivering the blocks they place, and the cluster ends with its timecode set back to zero. -/
theorem readElement_sizedCluster (numbers : List UInt64) {cs : List ClusterChild}
    {parts : List Bytes} (hparts : List.Forall₂ (ClusterChild.Octets opts) cs parts) {f : Feed}
    (hf : f.Ready numbers .stream 0) {h : Header} (he : h.element = some .cluster)
    (hn : h.size = some parts.flatten.length) {d : Decoder} {rest : Bytes}
    (hs : d.source.ahead = parts.flatten ++ rest) {fuel : Nat}
    (hfuel : 2 * parts.flatten.length + 3 ≤ fuel) :
    ∃ f', f'.delivered = f.delivered ++ (deliverAll numbers (ClusterChild.placed 0 cs)).1 ∧
      ((deliverAll numbers (ClusterChild.placed 0 cs)).2 = none → f'.Ready numbers .stream 0 ∧
        ∃ recs, (readTopLevel opts fuel f h).run d =
          (readChildren opts Feed.target fuel f' topLevel none).run
            (d.advance rest parts.flatten.length recs)) ∧
      ∀ err, (deliverAll numbers (ClusterChild.placed 0 cs)).2 = some err →
        ∃ d', (readTopLevel opts fuel f h).run d =
          ((f', .error (.context (.reading .cluster) err)), d') := by
  unfold readTopLevel
  have hk := two_mul_length_le_of_forall₂ hparts fun _ _ hc => hc.two_le
  have hsel := Feed.target_select_cluster hf.level
  have henter := Feed.target_enter_cluster hf.level
  set rec : Record := ⟨.cluster, d.source.position - h.length, h.length, some parts.flatten.length⟩
  obtain ⟨G, rfl⟩ : ∃ G, fuel = G + 1 + cs.length + 1 := ⟨fuel - cs.length - 2, by omega⟩
  obtain ⟨f₁, hdel₁, hready₁, hpass₁⟩ := delivers_clusterChildren opts numbers hparts 0
    { f with level := .cluster } ⟨some (d.source.position + parts.flatten.length), false, 1⟩
    ⟨d.source, d.records ++ [rec]⟩ rest (G + 1)
    ⟨hf.closed, hf.tracks, hf.groupTracks, rfl, hf.timecode, hf.block, hf.priority⟩
    (by simp [maxDepth]) hs (fun E hE => by rw [Option.mem_some_iff] at hE; exact Nat.le_of_eq hE)
    (by omega)
  have hover : Decoder.overruns topLevel.stop (some (d.source.position + parts.flatten.length)) =
    false := rfl
  cases herr : (deliverAll numbers (ClusterChild.placed 0 cs)).2 with
  | none =>
    rw [herr] at hpass₁
    obtain ⟨recs, hrun⟩ := hpass₁
    have hinner : (readMaster opts Feed.target (G + 1 + cs.length + 1) { f with level := .cluster }
        ⟨some (d.source.position + parts.flatten.length), false, 1⟩).run ⟨d.source, d.records ++ [rec]⟩ =
        ((f₁, .ok .exhausted), (⟨d.source, d.records ++ [rec]⟩ : Decoder).advance rest
          parts.flatten.length recs) := by
      rw [readMaster_succ opts _ (by simp [maxDepth]), hrun, readChildren_exhausted opts _ rfl (by simp [advance])]
    obtain ⟨hclosed, htracks, hgroup, hlevel, -, hblock, hprio⟩ := hready₁ herr
    refine ⟨{ { f₁ with emitter := { f₁.emitter with clusterTimecode := 0 } } with level := f.level },
      hdel₁, fun _ => ⟨⟨hclosed, htracks, hgroup, hf.level, rfl, hblock, hprio⟩, [rec] ++ recs, ?_⟩,
      fun err h => by simp at h⟩
    rw [readElement_master opts Feed.target he hn rfl hover rfl hsel rfl henter hinner
      (Feed.target_finish_cluster hlevel) rfl, Feed.target_close]
    simp [advance]
  | some err =>
    rw [herr] at hpass₁
    obtain ⟨d', hrun⟩ := hpass₁
    have hinner : (readMaster opts Feed.target (G + 1 + cs.length + 1) { f with level := .cluster }
        ⟨some (d.source.position + parts.flatten.length), false, 1⟩).run ⟨d.source, d.records ++ [rec]⟩ =
        ((f₁, .error err), d') := by
      rw [readMaster_succ opts _ (by simp [maxDepth]), hrun]
    refine ⟨{ f₁ with level := f.level }, hdel₁, fun h => by simp at h, fun err' h => ?_⟩
    cases h
    exact ⟨d', by rw [readElement_master_error opts Feed.target he hn rfl hover rfl hsel rfl henter
      hinner, Feed.target_close]⟩

/-- A cluster of unknown size, from its header on: its children are read, delivering the blocks
they place, until the source ends or the header of the next cluster, which the cluster hands back
to the top level; the cluster then ends with its timecode set back to zero. -/
theorem readElement_unsizedCluster (numbers : List UInt64) {cs : List ClusterChild}
    {parts : List Bytes} (hparts : List.Forall₂ (ClusterChild.Octets opts) cs parts) {f : Feed}
    (hf : f.Ready numbers .stream 0) {h : Header} (he : h.element = some .cluster)
    (hn : h.size = none) {d : Decoder} {rest : Bytes} (hs : d.source.ahead = parts.flatten ++ rest)
    (hbreaks : d.source.breaks = false) {fuel : Nat} (hfuel : 2 * parts.flatten.length + 3 ≤ fuel) :
    ∃ f', f'.delivered = f.delivered ++ (deliverAll numbers (ClusterChild.placed 0 cs)).1 ∧
      ((deliverAll numbers (ClusterChild.placed 0 cs)).2 = none → f'.Ready numbers .stream 0 ∧
        (rest = [] → ∃ d', (readTopLevel opts fuel f h).run d =
          ((f', .ok .eof), d')) ∧
        ∀ size head rest', HeadOctets opts .cluster size head → rest = head ++ rest' →
          ∃ id recs, (readTopLevel opts fuel f h).run d =
            (readChildren opts Feed.target fuel f' topLevel (some ⟨id, some .cluster, size, head.length⟩)).run
              (d.advance rest' (parts.flatten.length + head.length) recs)) ∧
      ∀ err, (deliverAll numbers (ClusterChild.placed 0 cs)).2 = some err →
        ∃ d', (readTopLevel opts fuel f h).run d =
          ((f', .error (.context (.reading .cluster) err)), d') := by
  unfold readTopLevel
  have hk := two_mul_length_le_of_forall₂ hparts fun _ _ hc => hc.two_le
  have hsel := Feed.target_select_cluster hf.level
  have henter := Feed.target_enter_cluster hf.level
  set rec : Record := ⟨.cluster, d.source.position - h.length, h.length, none⟩
  obtain ⟨G, rfl⟩ : ∃ G, fuel = G + 1 + cs.length + 1 := ⟨fuel - cs.length - 2, by omega⟩
  obtain ⟨f₁, hdel₁, hready₁, hpass₁⟩ := delivers_clusterChildren opts numbers hparts 0
    { f with level := .cluster } ⟨none, true, 1⟩ ⟨d.source, d.records ++ [rec]⟩ rest (G + 1)
    ⟨hf.closed, hf.tracks, hf.groupTracks, rfl, hf.timecode, hf.block, hf.priority⟩
    (by simp [maxDepth]) hs (fun E hE => nomatch hE) (by omega)
  cases herr : (deliverAll numbers (ClusterChild.placed 0 cs)).2 with
  | none =>
    rw [herr] at hpass₁
    obtain ⟨recs, hrun⟩ := hpass₁
    obtain ⟨hclosed, htracks, hgroup, hlevel, -, hblock, hprio⟩ := hready₁ herr
    set d₁ := (⟨d.source, d.records ++ [rec]⟩ : Decoder).advance rest parts.flatten.length recs
    have hfinish := Feed.target_finish_cluster hlevel
    refine ⟨{ { f₁ with emitter := { f₁.emitter with clusterTimecode := 0 } } with level := f.level },
      hdel₁, fun _ => ⟨⟨hclosed, htracks, hgroup, hf.level, rfl, hblock, hprio⟩, fun hnil => ?_,
        fun size head rest' hhead hrest => ?_⟩, fun err h => by simp at h⟩
    · -- the source ends with the cluster
      have hend : (Header.read opts).run d₁.source = (.ok none, d₁.source) :=
        Header.read_end (by simp [d₁, advance, hnil]) (by simp [d₁, advance, hbreaks])
      have hinner : (readMaster opts Feed.target (G + 1 + cs.length + 1) { f with level := .cluster }
          ⟨none, true, 1⟩).run ⟨d.source, d.records ++ [rec]⟩ = ((f₁, .ok .eof), { d₁ with source := d₁.source }) := by
        rw [readMaster_succ opts _ (by simp [maxDepth]), hrun, readChildren_eof opts _ rfl hend]
      exact ⟨_, by rw [readElement_unsized_eof opts Feed.target he hn rfl rfl hsel rfl henter hinner
        hfinish rfl, Feed.target_close]⟩
    · -- the next cluster's header ends it, and goes back to the top level
      obtain ⟨id, hnext⟩ := readChildren_headOctets opts Feed.target G f₁ ⟨none, true, 1⟩ hhead
        (show d₁.source.ahead = head ++ rest' by simp [d₁, advance, hrest]) rfl
      rw [readElement_handoff opts Feed.target rfl rfl rfl] at hnext
      have hinner : (readMaster opts Feed.target (G + 1 + cs.length + 1) { f with level := .cluster }
          ⟨none, true, 1⟩).run ⟨d.source, d.records ++ [rec]⟩ =
          ((f₁, .ok (.handoff ⟨id, some .cluster, size, head.length⟩)), d₁.advance rest' head.length []) := by
        rw [readMaster_succ opts _ (by simp [maxDepth]), hrun, hnext]
      refine ⟨id, [rec] ++ recs, ?_⟩
      rw [readElement_unsized_handoff opts Feed.target he hn rfl rfl hsel rfl henter hinner hfinish rfl,
        Feed.target_close]
      simp [d₁, advance, Nat.add_assoc]
  | some err =>
    rw [herr] at hpass₁
    obtain ⟨d', hrun⟩ := hpass₁
    have hinner : (readMaster opts Feed.target (G + 1 + cs.length + 1) { f with level := .cluster }
        ⟨none, true, 1⟩).run ⟨d.source, d.records ++ [rec]⟩ = ((f₁, .error err), d') := by
      rw [readMaster_succ opts _ (by simp [maxDepth]), hrun]
    refine ⟨{ f₁ with level := f.level }, hdel₁, fun h => by simp at h, fun err' h => ?_⟩
    cases h
    exact ⟨d', by rw [readElement_unsized_error opts Feed.target he hn rfl rfl hsel rfl henter hinner,
      Feed.target_close]⟩

/-- A cluster, of known size or not, from its header on: it delivers the blocks it places; then
the stream ends with it, or the reading goes on from the header of the next cluster, with one
unit of fuel fewer. -/
theorem readTopLevel_cluster (numbers : List UInt64) {c : ClusterElement} {parts : List Bytes}
    (hparts : List.Forall₂ (ClusterChild.Octets opts) c.children parts) {f : Feed}
    (hf : f.Ready numbers .stream 0) {h : Header} (he : h.element = some .cluster)
    (hn : h.size = if c.sized then some parts.flatten.length else none) {d : Decoder}
    {rest : Bytes} (hs : d.source.ahead = parts.flatten ++ rest) (hbreaks : d.source.breaks = false)
    {fuel : Nat} (hfuel : 2 * parts.flatten.length + 2 ≤ fuel) :
    ∃ f', f'.delivered = f.delivered ++ (deliverAll numbers (ClusterChild.placed 0 c.children)).1 ∧
      ((deliverAll numbers (ClusterChild.placed 0 c.children)).2 = none →
        f'.Ready numbers .stream 0 ∧
        (rest = [] → ∃ d', (readTopLevel opts (fuel + 1) f h).run d = ((f', .ok .eof), d')) ∧
        ∀ size head rest', HeadOctets opts .cluster size head → rest = head ++ rest' →
          ∃ id recs, (readTopLevel opts (fuel + 1) f h).run d =
            (readTopLevel opts fuel f' ⟨id, some .cluster, size, head.length⟩).run
              (d.advance rest' (parts.flatten.length + head.length) recs)) ∧
      ∀ err, (deliverAll numbers (ClusterChild.placed 0 c.children)).2 = some err →
        ∃ d', (readTopLevel opts (fuel + 1) f h).run d =
          ((f', .error (.context (.reading .cluster) err)), d') := by
  cases hsized : c.sized with
  | true =>
    rw [hsized, if_pos rfl] at hn
    obtain ⟨f', hdel, hnone, hsome⟩ := readElement_sizedCluster opts numbers hparts hf he hn hs
      (show 2 * parts.flatten.length + 3 ≤ fuel + 1 by omega)
    refine ⟨f', hdel, fun herr => ?_, hsome⟩
    obtain ⟨hready, recs, hrun⟩ := hnone herr
    set d₁ := d.advance rest parts.flatten.length recs
    refine ⟨hready, fun hnil => ?_, fun size head rest' hhead hrest => ?_⟩
    · -- the source ends with the cluster
      have hend : (Header.read opts).run d₁.source = (.ok none, d₁.source) :=
        Header.read_end (by simp [d₁, advance, hnil]) (by simp [d₁, advance, hbreaks])
      exact ⟨_, by rw [hrun, readChildren_eof opts _ rfl hend]⟩
    · -- the next cluster's header is read at the top level
      obtain ⟨id, hnext⟩ := readChildren_headOctets opts Feed.target fuel f' topLevel hhead
        (show d₁.source.ahead = head ++ rest' by simp [d₁, advance, hrest]) rfl
      rw [advance_advance, List.append_nil] at hnext
      exact ⟨id, recs, hrun.trans hnext⟩
  | false =>
    rw [hsized, if_neg Bool.false_ne_true] at hn
    obtain ⟨f', hdel, hnone, hsome⟩ := readElement_unsizedCluster opts numbers hparts hf he hn hs
      hbreaks (show 2 * parts.flatten.length + 3 ≤ fuel + 1 by omega)
    refine ⟨f', hdel, fun herr => ?_, hsome⟩
    obtain ⟨hready, heof, hhandoff⟩ := hnone herr
    refine ⟨hready, heof, fun size head rest' hhead hrest => ?_⟩
    obtain ⟨id, recs, hrun⟩ := hhandoff size head rest' hhead hrest
    exact ⟨id, recs, by rw [hrun, readChildren_pending opts _ rfl]; rfl⟩

/-- How a stream of clusters ends: with the source, or with the refusal that stopped it, in the
context of its cluster. -/
def clustersEnd (err : Option Error) : Except Error MasterEnd :=
  err.elim (.ok .eof) fun err => .error (.context (.reading .cluster) err)

/-- The clusters of a stream, read one after another from the header of the first: they deliver
the frames of the blocks they place, in order, and the reading ends with the source or stops at
the first block whose delivery is refused. The induction is on the clusters after the first;
each cluster leaves a feed ready for the next one. -/
theorem readTopLevel_clusters (numbers : List UInt64) (cs : List ClusterElement) :
    ∀ {c : ClusterElement} {parts : List Bytes},
      List.Forall₂ (ClusterChild.Octets opts) c.children parts → ∀ {f : Feed},
      f.Ready numbers .stream 0 → ∀ {h : Header}, h.element = some .cluster →
      h.size = (if c.sized then some parts.flatten.length else none) → ∀ {d : Decoder} {rest : Bytes},
      d.source.ahead = parts.flatten ++ rest → ClustersOctets opts cs rest →
      d.source.breaks = false → ∀ fuel : Nat, 2 * d.source.ahead.length + 2 ≤ fuel →
      ∃ f' d', (readTopLevel opts (fuel + 1) f h).run d =
          ((f', clustersEnd (deliverAll numbers (placedBlocks (c :: cs))).2), d') ∧
        f'.delivered = f.delivered ++ (deliverAll numbers (placedBlocks (c :: cs))).1 := by
  induction cs with
  | nil =>
    intro c parts hparts f hf h he hn d rest hs hrest hbreaks fuel hfuel
    obtain ⟨ps, hps, rfl⟩ := hrest
    cases hps
    simp only [List.flatten_nil, List.append_nil] at hs
    obtain ⟨f', hdel, hnone, hsome⟩ := readTopLevel_cluster opts numbers hparts hf he hn
      (by rw [hs, List.append_nil]) hbreaks
      (show 2 * parts.flatten.length + 2 ≤ fuel by rw [hs] at hfuel; exact hfuel)
    simp only [placedBlocks_cons, placedBlocks_nil, List.append_nil]
    cases herr : (deliverAll numbers (ClusterChild.placed 0 c.children)).2 with
    | none =>
      obtain ⟨d', hrun⟩ := (hnone herr).2.1 rfl
      exact ⟨f', d', by rw [hrun, clustersEnd, Option.elim_none], hdel⟩
    | some err =>
      obtain ⟨d', hrun⟩ := hsome err herr
      exact ⟨f', d', by rw [hrun, clustersEnd, Option.elim_some], hdel⟩
  | cons c' cs ih =>
    intro c parts hparts f hf h he hn d rest hs hrest hbreaks fuel hfuel
    obtain ⟨ps, hps, rfl⟩ := hrest
    cases hps with
    | @cons _ bs' _ ps' hc' hps' =>
    obtain ⟨parts', hparts', head', rfl, hhead'⟩ := hc'
    have hlen := hhead'.two_le
    simp only [List.flatten_cons, List.length_append, hs] at hfuel
    obtain ⟨f', hdel, hnone, hsome⟩ := readTopLevel_cluster opts numbers hparts hf he hn hs hbreaks
      (show 2 * parts.flatten.length + 2 ≤ fuel by omega)
    rw [placedBlocks_cons c]
    cases herr : (deliverAll numbers (ClusterChild.placed 0 c.children)).2 with
    | none =>
      obtain ⟨hready, -, hnext⟩ := hnone herr
      obtain ⟨id, recs, hrun⟩ := hnext _ head' (parts'.flatten ++ ps'.flatten) hhead'
        (by rw [List.flatten_cons, List.append_assoc])
      obtain ⟨F, rfl⟩ : ∃ F, fuel = F + 1 := ⟨fuel - 1, by omega⟩
      obtain ⟨f'', d'', hrun', hdel'⟩ := ih hparts' hready
        (h := ⟨id, some .cluster, if c'.sized then some parts'.flatten.length else none,
          head'.length⟩) rfl rfl
        (d := d.advance (parts'.flatten ++ ps'.flatten) (parts.flatten.length + head'.length) recs)
        rfl ⟨ps', hps', rfl⟩ (by simp [advance, hbreaks]) F
        (by simp only [advance, List.length_append]; omega)
      refine ⟨f'', d'', ?_, ?_⟩
      · rw [hrun, hrun', deliverAll_append_of_none numbers herr]
      · rw [hdel', hdel, deliverAll_append_of_none numbers herr, List.append_assoc]
    | some err =>
      obtain ⟨d', hrun⟩ := hsome err herr
      refine ⟨f', d', ?_, ?_⟩
      · rw [hrun, deliverAll_append_of_some numbers herr, herr, clustersEnd, Option.elim_some]
      · rw [hdel, deliverAll_append_of_some numbers herr]

/-- A stream's clusters, read from the top level into a new feed of its tracks, all open, with
the fuel a stream is given: they deliver the frames of the blocks they place, in order, and the
reading ends with the source or stops at the first refusal. -/
theorem readMaster_clusters (numbers : List UInt64) {cs : List ClusterElement} {d : Decoder}
    (hcs : ClustersOctets opts cs d.source.ahead) (hbreaks : d.source.breaks = false) :
    ∃ f' d', (readMaster opts Feed.target (budget d) (Feed.new numbers []) topLevel).run d =
        ((f', clustersEnd (deliverAll numbers (placedBlocks cs)).2), d') ∧
      f'.delivered = (deliverAll numbers (placedBlocks cs)).1 := by
  -- a stream is given far more fuel than its clusters take
  obtain ⟨F, hF, hfuel⟩ : ∃ F, budget d = F + 1 + 1 + 1 ∧ 2 * d.source.ahead.length + 2 ≤ F :=
    ⟨budget d - 3, by simp only [budget, maxDepth]; omega, by simp only [budget, maxDepth]; omega⟩
  rw [hF, readMaster_succ opts _ (by simp [topLevel])]
  obtain ⟨ps, hps, hahead⟩ := hcs
  cases hps with
  | nil =>
    have hend : (Header.read opts).run d.source = (.ok none, d.source) :=
      Header.read_end (by rw [hahead, List.flatten_nil]) hbreaks
    exact ⟨_, _, readChildren_eof opts Feed.target rfl hend, rfl⟩
  | @cons c bs cs ps hc hps =>
    obtain ⟨parts, hparts, head, rfl, hhead⟩ := hc
    rw [List.flatten_cons, List.append_assoc] at hahead
    obtain ⟨id, hfirst⟩ := readChildren_headOctets opts Feed.target (F + 1) (Feed.new numbers [])
      topLevel hhead hahead rfl
    obtain ⟨f', d', hrun, hdel⟩ := readTopLevel_clusters opts numbers cs hparts
      (Feed.ready_new numbers)
      (h := ⟨id, some .cluster, if c.sized then some parts.flatten.length else none, head.length⟩)
      rfl rfl (d := d.advance (parts.flatten ++ ps.flatten) head.length []) rfl ⟨ps, hps, rfl⟩
      (by simp [advance, hbreaks]) F
      (by simp only [advance, hahead, List.length_append] at hfuel ⊢; omega)
    exact ⟨f', d', hfirst.trans hrun, hdel.trans (List.nil_append _)⟩

/-- A refusal in the context of its cluster is a closed pipeline only where the refusal itself
is. -/
theorem refusal_any_pipelineClosed (p : PlacedBlock) (err : Error) :
    (Error.context (.reading .cluster) (p.refusal err)).any (· == .pipelineClosed) =
      err.any (· == .pipelineClosed) := by
  have hctx : ∀ s e, (Error.context s e == .pipelineClosed) = false := fun _ _ => rfl
  unfold PlacedBlock.refusal
  cases p.simple <;> simp [Error.any, Error.layers, hctx]

/-- Reading a block stream whose header is followed by clusters, with every track open: the
frames delivered are those of every block of a track of the header, in order, up to the first
such block whose cluster timecode or timestamp does not fit a signed 64-bit number; the reading
stops there with `timestampOutOfRange`, in the context of the block's cluster (and of the simple
block, for a simple block). -/
theorem readStream_delivers_blocks (opts : DecodeOptions) {source : Source}
    {tracks : List TrackEntry} {d : Decoder}
    (hheader : readHeader opts (Decoder.ofSource source) = (.ok tracks, d))
    {cs : List ClusterElement} (hcs : ClustersOctets opts cs d.source.ahead)
    (hbreaks : d.source.breaks = false) :
    readStream opts source [] = .ok
      { tracks
        frames := (((placedBlocks cs).filter (·.listed (tracks.map (·.trackNumber)))).takeWhile
          (·.fits)).flatMap fun p => p.frames ((tracks.map (·.trackNumber)).idxOf p.block.track)
        fatal := (((placedBlocks cs).filter (·.listed (tracks.map (·.trackNumber)))).find?
          (!·.fits)).map fun p => Error.context (.reading .cluster)
            (p.refusal .timestampOutOfRange) } := by
  obtain ⟨f', d', hrun, hdel⟩ := readMaster_clusters opts (tracks.map (·.trackNumber)) hcs hbreaks
  unfold readStream
  rw [hheader]
  dsimp only
  rw [unmarshal_run, show (⟨none, false, 0⟩ : Extent) = topLevel from rfl, hrun]
  dsimp only
  rw [hdel, deliverAll_eq]
  set numbers := tracks.map (·.trackNumber)
  simp only [Except.ok.injEq, ReadResult.mk.injEq, true_and]
  have hclosed : Error.pipelineClosed.any (· == .pipelineClosed) = true := rfl
  have hout : Error.timestampOutOfRange.any (· == .pipelineClosed) = false := rfl
  by_cases hnum : numbers.isEmpty = true
  · -- with no track listed, the first block closes the stream, which is not an error
    have hnone : (placedBlocks cs).filter (·.listed numbers) = [] := by
      rw [List.isEmpty_iff] at hnum
      simp [PlacedBlock.listed, hnum]
    rw [if_pos hnum, hnone]
    cases (placedBlocks cs).head? with
    | none => rfl
    | some p => simp [clustersEnd, Except.map, refusal_any_pipelineClosed, hclosed]
  · rw [if_neg hnum]
    cases ((placedBlocks cs).filter (·.listed numbers)).find? (!·.fits) with
    | none => rfl
    | some p => simp [clustersEnd, Except.map, refusal_any_pipelineClosed, hout]

/-- A block stream of one track, numbered 1, and one cluster, of unknown size as its segment:
the cluster timecode 2^63, then a keyframe of the track with the block timecode -1 and the one
octet 1. -/
def lateClusterStream : Bytes :=
  [0x18, 0x53, 0x80, 0x67, 0xff, 0x16, 0x54, 0xae, 0x6b, 0x85, 0xae, 0x83, 0xd7, 0x81, 0x01] ++
    [0x1f, 0x43, 0xb6, 0x75, 0xff, 0xe7, 0x88, 0x80, 0, 0, 0, 0, 0, 0, 0, 0xa3, 0x85, 0x81, 0xff,
      0xff, 0x80, 0x01]

/-- The one cluster of that stream: the timecode 2^63, then the keyframe of track 1. -/
def lateClusters : List ClusterElement :=
  [⟨false, [.timecode 0x8000000000000000,
    .simpleBlock { track := 1, timecode := -1, keyframe := true, frames := [[0x01]] }]⟩]

/-- The decoder once the header of that stream is read. -/
def lateClusterDecoder : Decoder :=
  (readHeader {} (Decoder.ofSource (Source.ofBytes lateClusterStream))).2

/-- The header of that stream lists track 1 and leaves the decoder at the cluster, whose octets
the cluster grammar describes; so reading the stream delivers what its listed blocks give. -/
theorem late_cluster_stream_read :
    readHeader {} (Decoder.ofSource (Source.ofBytes lateClusterStream)) =
        (.ok [{ trackNumber := 1 }], lateClusterDecoder) ∧
      ClustersOctets {} lateClusters lateClusterDecoder.source.ahead ∧
      lateClusterDecoder.source.breaks = false ∧
      readStream {} (Source.ofBytes lateClusterStream) [] = .ok
        { tracks := [{ trackNumber := 1 }]
          frames := (((placedBlocks lateClusters).filter
            (·.listed (([{ trackNumber := 1 }] : List TrackEntry).map (·.trackNumber)))).takeWhile
              (·.fits)).flatMap fun p =>
                p.frames ((([{ trackNumber := 1 }] : List TrackEntry).map (·.trackNumber)).idxOf
                  p.block.track)
          fatal := (((placedBlocks lateClusters).filter
            (·.listed (([{ trackNumber := 1 }] : List TrackEntry).map (·.trackNumber)))).find?
              (!·.fits)).map fun p => Error.context (.reading .cluster)
                (p.refusal .timestampOutOfRange) } := by
  have hview : (readHeader {} (Decoder.ofSource (Source.ofBytes lateClusterStream))).1.toOption =
      some [{ trackNumber := 1 }] := by
    decide +kernel
  have hheader : readHeader {} (Decoder.ofSource (Source.ofBytes lateClusterStream)) =
      (.ok [{ trackNumber := 1 }], lateClusterDecoder) := by
    revert hview
    unfold lateClusterDecoder
    cases readHeader {} (Decoder.ofSource (Source.ofBytes lateClusterStream)) with
    | mk r d =>
      cases r with
      | error err => intro h; cases h
      | ok tracks => intro h; cases h; rfl
  have hsource : lateClusterDecoder.source =
      { ahead := Element.cluster.idBytes ++ Vint.withMarker 1 (Vint.allOnes 1) ++
          ((Element.timecode.idBytes ++ [0x88] ++ [0x80, 0, 0, 0, 0, 0, 0, 0]) ++
            (Element.simpleBlock.idBytes ++ [0x85] ++ [0x81, 0xff, 0xff, 0x80, 0x01]))
        position := 15 } := by
    decide +kernel
  have htc : ScalarOctets {} .timecode (.uint 0x8000000000000000)
      (Element.timecode.idBytes ++ [0x88] ++ [0x80, 0, 0, 0, 0, 0, 0, 0]) :=
    ScalarOctets.of_encode (.uint rfl) rfl (by decide) (by decide) (by decide)
      (show Vint.encode (some 8) none 8 = .ok [0x88] from rfl) (by decide)
  have hsb : ScalarOctets {} .simpleBlock
      (.block { track := 1, timecode := -1, keyframe := true, frames := [[0x01]] })
      (Element.simpleBlock.idBytes ++ [0x85] ++ [0x81, 0xff, 0xff, 0x80, 0x01]) :=
    ScalarOctets.of_encode (.block rfl (by decide)) rfl (by decide) (by decide) (by decide)
      (show Vint.encode (some 5) none 8 = .ok [0x85] from rfl) (by decide)
  have hcs : ClustersOctets {} lateClusters lateClusterDecoder.source.ahead := by
    rw [hsource]
    exact ⟨[_], .cons ⟨[_, _], .cons htc (.cons hsb .nil), _, rfl,
      HeadOctets.of_unknown .cluster (by decide) (Nat.le_refl 1) (by decide) (by decide)⟩ .nil, rfl⟩
  have hbreaks : lateClusterDecoder.source.breaks = false := by rw [hsource]
  exact ⟨hheader, hcs, hbreaks, readStream_delivers_blocks {} hheader hcs hbreaks⟩

/-- The block of that stream has the timestamp 2^63 - 1, which fits a signed 64-bit number, but
its cluster timecode does not: the reading stops at the block and delivers nothing. -/
theorem late_cluster_timecode_refused :
    readStream {} (Source.ofBytes lateClusterStream) [] =
      .ok { tracks := [{ trackNumber := 1 }]
            frames := []
            fatal := some (.context (.reading .cluster)
              (.context (.assigning .simpleBlock) .timestampOutOfRange)) } := by
  have hview : ((readStream {} (Source.ofBytes lateClusterStream) []).toOption.map
      fun r => (r.tracks, r.frames, r.fatal)) =
      some ([{ trackNumber := 1 }], [], some (.context (.reading .cluster)
        (.context (.assigning .simpleBlock) .timestampOutOfRange))) := by
    decide +kernel
  revert hview
  cases readStream {} (Source.ofBytes lateClusterStream) [] with
  | error err => intro h; cases h
  | ok r =>
    obtain ⟨tracks, frames, fatal⟩ := r
    intro h
    simp only [Except.toOption, Option.map_some, Option.some.injEq, Prod.mk.injEq] at h
    obtain ⟨rfl, rfl, rfl⟩ := h
    rfl

end Reading

end Matroska

end Ebml
