import Mathlib.Data.List.Nodup
import Ebml.Codegen.Table
import Ebml.Proofs.IdCodec
import Ebml.Proofs.TrieLookup

/-!
# Element tables resolve exactly

The expansion accepts a table exactly when every identifier passes its check and no name or
identifier comes twice (`checkEntries_ok_iff`), whatever reader found its entries. So the trie
built over the variants resolves each variant's octets to it and nothing else, also octet by
octet, and a name resolves to its variant (`element_table_lookup`); the schema's own trie agrees
with the schema's lookup (`Element.trie_lookup`).
-/

namespace Ebml

namespace Codegen

/-! ## The table check -/

private theorem lookup_ids_cons_eq_none {ids : List (Nat × String)} {k a : Nat} {b : String} :
    ((k, b) :: ids).lookup a = none ↔ a ≠ k ∧ ids.lookup a = none := by
  by_cases h : a = k
  · subst h
    simp
  · have hne : (a == k) = false := beq_eq_false_iff_ne.mpr h
    simp [List.lookup_cons, hne, h]

/-- One entry of the check: its identifier, then its name and identifier against the ones
before it. -/
theorem checkEntries_cons_ok_iff (e : ElementDefinition) (rest : List ElementDefinition)
    (names : List String) (ids : List (Nat × String)) :
    checkEntries (e :: rest) names ids = .ok () ↔
      checkId e.id = .ok () ∧ e.text ∉ names ∧ ids.lookup e.id = none ∧
        checkEntries rest (e.text :: names) ((e.id, e.text) :: ids) = .ok () := by
  rw [checkEntries.eq_2]
  rcases hc : checkId e.id with m | ⟨⟩
  · simp [bind, Except.bind]
  · by_cases hn : e.text ∈ names
    · simp [hn, bind, Except.bind, throw, throwThe, MonadExceptOf.throw]
    · rcases hl : ids.lookup e.id with _ | other
      · simp [hn, bind, Except.bind]
      · simp [hn, bind, Except.bind, throw, throwThe, MonadExceptOf.throw]

/-- The check accepts exactly the tables whose identifiers pass, with no name and no identifier
twice, and none among the names and identifiers seen before. -/
theorem checkEntries_ok_iff (es : List ElementDefinition) (names : List String)
    (ids : List (Nat × String)) :
    checkEntries es names ids = .ok () ↔
      (∀ e ∈ es, checkId e.id = .ok ()) ∧ (es.map ElementDefinition.text).Nodup ∧
        (∀ e ∈ es, e.text ∉ names) ∧ (es.map ElementDefinition.id).Nodup ∧
        ∀ e ∈ es, ids.lookup e.id = none := by
  induction es generalizing names ids with
  | nil => simp [checkEntries]
  | cons e rest ih =>
    rw [checkEntries_cons_ok_iff, ih]
    -- the entry's name and identifier against the later ones become the uniqueness of the whole
    simp only [List.forall_mem_cons, List.map_cons, List.nodup_cons]
    simp only [List.mem_cons, not_or, lookup_ids_cons_eq_none, List.mem_map, not_exists, not_and]
    constructor
    · rintro ⟨hc, hn, hl, hcs, hnd, hnames, hidnd, hids⟩
      exact ⟨⟨hc, hcs⟩, ⟨fun x hx h => (hnames x hx).1 h, hnd⟩, ⟨hn, fun x hx => (hnames x hx).2⟩,
        ⟨fun x hx h => (hids x hx).1 h, hidnd⟩, ⟨hl, fun x hx => (hids x hx).2⟩⟩
    · rintro ⟨⟨hc, hcs⟩, ⟨hnt, hnd⟩, ⟨hn, hnames⟩, ⟨hit, hidnd⟩, ⟨hl, hids⟩⟩
      exact ⟨hc, hn, hl, hcs, hnd, fun x hx => ⟨hnt x hx, hnames x hx⟩, hidnd,
        fun x hx => ⟨hit x hx, hids x hx⟩⟩

/-- A table the expansion accepts passed the check, whatever reader found its entries. -/
theorem checkEntries_of_parseTableWith
    {read : List Tokens.TokenTree → Except String (List ElementDefinition × Bool)}
    {ts : List Tokens.TokenTree} {es : List ElementDefinition}
    (h : parseTableWith read ts = .ok es) : checkEntries es [] [] = .ok () := by
  unfold parseTableWith at h
  rcases hp : read ts with m | ⟨es', leftover⟩
  · -- the entries were not read
    simp only [hp, bind, Except.bind, reduceCtorEq] at h
  · cases leftover
    · -- no trees left over: the check ran, and passed
      rcases hc : checkEntries es' [] [] with m | ⟨⟩
      · simp only [hp, hc, bind, Except.bind, Bool.false_eq_true, if_false, reduceCtorEq] at h
      · simp only [hp, hc, bind, Except.bind, Bool.false_eq_true, if_false, pure, Except.pure,
          Except.ok.injEq] at h
        subst h
        exact hc
    · simp only [hp, bind, Except.bind, if_true, throw, throwThe, MonadExceptOf.throw,
        reduceCtorEq] at h

/-! ## Identifiers -/

private theorem pow_two_octets (k : Nat) : Nat.pow 2 (k * 8) = Nat.pow 256 k := by
  rw [Nat.mul_comm]
  exact Nat.pow_mul 2 8 k

/-- The expansion accepts exactly the identifiers the library accepts that span at most four
octets. -/
theorem checkId_ok_iff (id : Nat) :
    checkId id = .ok () ↔ Vint.checkId id = .ok id ∧ Element.idWidth id ≤ 4 := by
  rw [Vint.checkId_eq_ok_iff]
  by_cases h0 : id = 0
  · subst h0
    simp [checkId]
  · rw [Vint.exists_idOfWidth_iff h0]
    have hw : idOctets id = Element.idWidth id := rfl
    have h1 := (Vint.idWidth_bounds h0).1
    simp only [checkId, h0, if_false, hw, pow_two_octets, true_and, ne_eq, not_false_eq_true]
    generalize Nat.log2 (id / Nat.pow 256 (Element.idWidth id - 1)) = L at *
    by_cases h4 : Element.idWidth id > 4
    · rw [if_pos h4]
      simp only [reduceCtorEq, false_iff]
      omega
    · rw [if_neg h4]
      by_cases hm : 8 - L ≠ Element.idWidth id
      · rw [if_pos hm]
        simp only [reduceCtorEq, false_iff]
        omega
      · rw [if_neg hm]
        simp only [true_iff]
        omega

/-- The octets of an identifier give the identifier back. -/
theorem toNat_idOctets (id : Nat) : Octets.toNat (Octets.ofNat (Element.idWidth id) id) = id := by
  by_cases h0 : id = 0
  · subst h0
    rfl
  · exact Octets.toNat_ofNat_of_lt (Vint.idWidth_bounds h0).2.2

/-! ## The generated lookups -/

section Variants

variable {es : List ElementDefinition}

theorem variant_eq_of_nodup {β : Type} {f : ElementDefinition → β} (h : (es.map f).Nodup)
    {v w : ElementVariant es} (hvw : f (es.get v) = f (es.get w)) : v = w := by
  have hv : v.1 < (es.map f).length := by simp
  have hw : w.1 < (es.map f).length := by simp
  have hget : (es.map f)[v.1] = (es.map f)[w.1] := by
    simpa using hvw
  exact Fin.ext ((h.getElem_inj_iff).mp hget)

/-- Variants of distinct identifiers are filed under distinct octets. -/
theorem variantOctets_injective (h : (es.map ElementDefinition.id).Nodup)
    {v w : ElementVariant es} (hvw : variantOctets es v = variantOctets es w) : v = w := by
  have hid := congrArg Octets.toNat hvw
  rw [variantOctets, variantOctets, toNat_idOctets, toNat_idOctets] at hid
  exact variant_eq_of_nodup h hid

/-- The trie over the variants of distinct identifiers resolves each variant's octets to it and
nothing else. -/
theorem variantTrie_lookup_iff (h : (es.map ElementDefinition.id).Nodup) (s : Bytes)
    (v : ElementVariant es) : (variantTrie es).lookup s = some v ↔ s = variantOctets es v := by
  have hkeys : (((allVariants es).map fun v => (variantOctets es v, v)).map Prod.fst).Nodup := by
    rw [List.map_map]
    exact (List.nodup_finRange _).map_on fun x _ y _ hxy => variantOctets_injective h hxy
  rw [variantTrie, Trie.lookup_build_eq_some_iff hkeys]
  constructor
  · intro hm
    obtain ⟨w, -, hw⟩ := List.mem_map.mp hm
    simp only [Prod.mk.injEq] at hw
    obtain ⟨rfl, rfl⟩ := hw
    rfl
  · rintro rfl
    exact List.mem_map.mpr ⟨v, List.mem_finRange v, rfl⟩

/-- The name lookup of distinct names gives each name's variant and nothing else. -/
theorem variantOfName_iff (h : (es.map ElementDefinition.text).Nodup) (x : String)
    (v : ElementVariant es) : variantOfName es x = some v ↔ x = variantName es v := by
  have hkeys : ((nameArms es).map Prod.fst).Nodup := by
    rw [nameArms, List.map_map]
    exact (List.nodup_finRange _).map_on fun x _ y _ hxy => variant_eq_of_nodup h hxy
  rw [variantOfName, find?_key_eq_some_iff hkeys]
  constructor
  · intro hm
    obtain ⟨w, -, hw⟩ := List.mem_map.mp hm
    simp only [Prod.mk.injEq] at hw
    obtain ⟨rfl, rfl⟩ := hw
    rfl
  · rintro rfl
    exact List.mem_map.mpr ⟨v, List.mem_finRange v, rfl⟩

end Variants

/-- For every table the expansion accepts, whatever reader found its entries: every identifier
is one the library accepts; the trie built over the variants resolves exactly the octets of a
variant's identifier, to that variant, and nothing else; a header reader stepping the trie octet
by octet resolves what a lookup of the whole identifier resolves; and a name resolves exactly to
its variant. -/
theorem element_table_lookup
    (read : List Tokens.TokenTree → Except String (List ElementDefinition × Bool))
    {ts : List Tokens.TokenTree} {es : List ElementDefinition}
    (h : parseTableWith read ts = .ok es) :
    (∀ v : ElementVariant es, Vint.checkId (variantId es v) = .ok (variantId es v)) ∧
    (∀ (s : Bytes) (v : ElementVariant es),
      (variantTrie es).lookup s = some v ↔ s = variantOctets es v) ∧
    (∀ s : Bytes, (∀ v, s ≠ variantOctets es v) → (variantTrie es).lookup s = none) ∧
    (∀ (first : UInt8) (tail : Bytes),
      (variantTrie es).descend first tail = (variantTrie es).lookup (first :: tail)) ∧
    (∀ (x : String) (v : ElementVariant es), variantOfName es x = some v ↔ x = variantName es v) := by
  obtain ⟨hids, hnames, -, hidnd, -⟩ := (checkEntries_ok_iff es [] []).mp
    (checkEntries_of_parseTableWith h)
  refine ⟨fun v => ((checkId_ok_iff _).mp (hids es[v] (List.getElem_mem _))).1,
    variantTrie_lookup_iff hidnd, fun s hs => ?_, fun first tail => Trie.descend_eq_lookup _ first tail,
    variantOfName_iff hnames⟩
  rcases hl : (variantTrie es).lookup s with _ | v
  · rfl
  · exact absurd ((variantTrie_lookup_iff hidnd s v).mp hl) (hs v)

/-- A two-entry table: the second identifier, two octets long, resolves to its variant, also
octet by octet, and no proper prefix of it resolves. -/
theorem two_entry_table_lookup :
    parseTable [.ident "A" false, .punct ':' .alone,
        .group .brace [.literal "0x80", .punct ',' .alone, .ident "Master" false],
        .punct ',' .alone, .ident "B" false, .punct ':' .alone,
        .group .brace [.literal "0x4001", .punct ',' .alone, .ident "Binary" false,
          .punct ',' .alone, .ident "top" false]] =
      .ok [⟨("A", false), 0x80, "Master", false⟩, ⟨("B", false), 0x4001, "Binary", true⟩] ∧
    (variantTrie [⟨("A", false), 0x80, "Master", false⟩, ⟨("B", false), 0x4001, "Binary", true⟩]).lookup
      [0x40, 0x01] = some 1 ∧
    (variantTrie [⟨("A", false), 0x80, "Master", false⟩, ⟨("B", false), 0x4001, "Binary", true⟩]).descend
      0x40 [0x01] = some 1 ∧
    (variantTrie [⟨("A", false), 0x80, "Master", false⟩, ⟨("B", false), 0x4001, "Binary", true⟩]).lookup
      [0x40] = none := by
  have hp : parseTable [.ident "A" false, .punct ':' .alone,
      .group .brace [.literal "0x80", .punct ',' .alone, .ident "Master" false],
      .punct ',' .alone, .ident "B" false, .punct ':' .alone,
      .group .brace [.literal "0x4001", .punct ',' .alone, .ident "Binary" false,
        .punct ',' .alone, .ident "top" false]] =
      .ok [⟨("A", false), 0x80, "Master", false⟩, ⟨("B", false), 0x4001, "Binary", true⟩] := by
    rfl
  obtain ⟨-, hlook, hnone, hdescend, -⟩ := element_table_lookup readEntries hp
  have hB : (variantTrie [⟨("A", false), 0x80, "Master", false⟩,
      ⟨("B", false), 0x4001, "Binary", true⟩]).lookup [0x40, 0x01] = some 1 :=
    (hlook _ 1).mpr (by decide)
  exact ⟨hp, hB, by rw [hdescend]; exact hB, hnone _ (by decide)⟩

end Codegen

/-! ## The schema's own table -/

/-- The schema's trie resolves every octet string as the schema's lookup does. -/
theorem Element.trie_lookup (s : Bytes) : Element.trie.lookup s = Element.lookup s := by
  have hkeys : ((Element.all.map fun e => (e.idBytes, e)).map Prod.fst).Nodup := by
    rw [List.map_map]
    decide
  have hfind : Element.lookup s =
      ((Element.all.map fun e => (e.idBytes, e)).find? fun x => x.1 == s).map Prod.snd := by
    rw [List.find?_map, Option.map_map]
    exact Option.map_id'.symm
  apply Option.ext
  intro e
  rw [Element.trie, Trie.lookup_build_eq_some_iff hkeys, hfind, find?_key_eq_some_iff hkeys]

end Ebml
