import Mathlib.Data.List.Nodup
import Ebml.Tag

/-!
# The text of a tag

A tag is written as a schema element's name followed by options, separated by commas.
`DecimalWord` and `OptionText` state that grammar on their own terms, and the main statement,
`Tag.parse_eq_ok_iff`, says that the reader of tags accepts exactly its texts and gives the tag
they describe.
-/

namespace Ebml

/-! ## Numbers -/

/-- The digits of a number of 64 bits, of value `n`: at least one digit, digits only, and a value
that fits 64 bits. -/
def DecimalDigits (digits : List Char) (n : Nat) : Prop :=
  digits ≠ [] ∧ (∀ c ∈ digits, c.isDigit) ∧ n = Nat.ofDigitChars 10 digits 0 ∧ n ≤ maxWord

/-- The text of a number of 64 bits in decimal, of value `n`: its digits, after an optional
leading `+`. -/
def DecimalWord (text : String) (n : Nat) : Prop :=
  DecimalDigits text.toList n ∨ ∃ digits, text.toList = '+' :: digits ∧ DecimalDigits digits n

/-- The conditions on digits, as a reader checks them. -/
theorem decimalDigits_iff {digits : List Char} {n : Nat} :
    DecimalDigits digits n ↔
      (digits.isEmpty = false ∧ digits.all Char.isDigit = true ∧
        Nat.ofDigitChars 10 digits 0 ≤ maxWord) ∧ Nat.ofDigitChars 10 digits 0 = n := by
  simp only [DecimalDigits, List.isEmpty_eq_false_iff, ne_eq, List.all_eq_true]
  constructor
  · rintro ⟨hne, hall, rfl, hle⟩
    exact ⟨⟨hne, hall, hle⟩, rfl⟩
  · rintro ⟨⟨hne, hall, hle⟩, rfl⟩
    exact ⟨hne, hall, rfl, hle⟩

private theorem not_decimalDigits_plus {digits : List Char} {n : Nat} :
    ¬DecimalDigits ('+' :: digits) n := by
  rintro ⟨-, hall, -⟩
  exact absurd (hall '+' List.mem_cons_self) (by decide)

/-- A text with a leading `+` is a number when what follows is its digits. -/
theorem decimalWord_of_plus {text : String} {digits : List Char} {n : Nat}
    (h : text.toList = '+' :: digits) : DecimalWord text n ↔ DecimalDigits digits n := by
  rw [DecimalWord, h]
  constructor
  · rintro (hd | ⟨d, hd, hdigits⟩)
    · exact absurd hd not_decimalDigits_plus
    · obtain rfl : digits = d := (List.cons.inj hd).2
      exact hdigits
  · exact fun hd => .inr ⟨digits, rfl, hd⟩

/-- A text without a leading `+` is a number when it is all digits. -/
theorem decimalWord_of_unsigned {text : String} {n : Nat}
    (h : ∀ digits, text.toList = '+' :: digits → False) :
    DecimalWord text n ↔ DecimalDigits text.toList n := by
  constructor
  · rintro (hd | ⟨d, hd, -⟩)
    · exact hd
    · exact absurd hd (h d)
  · exact .inl

/-- Reading digits one at a time, a non-digit refusing the whole: the value of the digits read
after `init`, when they are all digits. -/
theorem foldl_digitValue (digits : List Char) (init : Option Nat) :
    digits.foldl (fun acc c => acc.bind fun n => (digitValue? c).map (n * 10 + ·)) init =
      if digits.all Char.isDigit then init.map (Nat.ofDigitChars 10 digits) else none := by
  induction digits generalizing init with
  | nil => cases init <;> simp [Nat.ofDigitChars_nil]
  | cons c rest ih =>
    rw [List.foldl_cons, ih]
    by_cases hc : c.isDigit
    · cases init <;> simp [digitValue?, hc, Nat.ofDigitChars_cons, Nat.mul_comm]
    · simp [digitValue?, hc]

/-- The reader of numbers accepts exactly the texts of numbers of 64 bits, with their value. -/
theorem parseWord?_eq_some_iff {text : String} {n : Nat} :
    parseWord? text = some n ↔ DecimalWord text n := by
  unfold parseWord?
  dsimp only
  split <;> rename_i h
  all_goals first
    | rw [decimalWord_of_plus h]
    | rw [decimalWord_of_unsigned h]
  all_goals
    rw [foldl_digitValue, decimalDigits_iff]
    split
    · simp_all
    · split
      · simp_all
      · rename_i hall
        simp [hall]

/-! ## Options -/

/-- What one option of a tag sets. -/
inductive TagOption where
  | omitEmpty
  | stop
  | unknownSize
  | exactSize (n : Nat)
  deriving DecidableEq

/-- The options of a tag as they are written, each with what it sets: `size=unknown` has the
older spelling `inf`, and `size=N` takes a number of 64 bits. -/
inductive OptionText : String → TagOption → Prop where
  | omitEmpty : OptionText "omitempty" .omitEmpty
  | stop : OptionText "stop" .stop
  | inf : OptionText "inf" .unknownSize
  | unknown : OptionText "size=unknown" .unknownSize
  | exact {digits : String} {n : Nat} (h : DecimalWord digits n) :
      OptionText ("size=" ++ digits) (.exactSize n)

namespace TagOption

/-- The size an option sets, if it is a size option. -/
def size? : TagOption → Option DeclaredSize
  | unknownSize => some .unknown
  | exactSize n => some (.exact n)
  | _ => none

/-- The size that options set: the last size option's, or the natural size when there is none. -/
def lastSize (os : List TagOption) : DeclaredSize :=
  ((os.filterMap size?).getLast?).getD .natural

end TagOption

/-- A size option with a number is none of the other options. -/
theorem OptionText.exact_ne {digits : String} {n : Nat} (h : DecimalWord digits n) :
    "size=" ++ digits ≠ "" ∧ "size=" ++ digits ≠ "omitempty" ∧ "size=" ++ digits ≠ "inf" ∧
      "size=" ++ digits ≠ "size=unknown" ∧ "size=" ++ digits ≠ "stop" := by
  have hunknown : "size=" ++ digits ≠ "size=unknown" := by
    intro he
    have hd : digits.toList = "unknown".toList := by simpa using congrArg String.toList he
    rcases h with ⟨-, hall, -⟩ | ⟨d, hd', -⟩
    · exact absurd (hall 'u' (by simp [hd])) (by decide)
    · simp [hd] at hd'
  refine ⟨?_, ?_, ?_, hunknown, ?_⟩ <;> intro he <;> simpa using congrArg String.toList he

/-- Text that starts with `size=` is `size=` followed by the rest. -/
theorem eq_size_append {option : String} (h : "size=".toList <+: option.toList) :
    option = "size=" ++ String.ofList (option.toList.drop 5) := by
  obtain ⟨rest, hrest⟩ := h
  apply String.toList_inj.mp
  simp [← hrest]

/-- The number of a size option fits 64 bits. -/
theorem OptionText.exactSize_le {option : String} {n : Nat}
    (h : OptionText option (.exactSize n)) : n ≤ maxWord := by
  cases h with
  | exact hw =>
    rcases hw with ⟨-, -, -, hle⟩ | ⟨_, -, -, -, -, hle⟩ <;> exact hle

/-- A tag with one option's setting applied. -/
def Tag.set (t : Tag) : TagOption → Tag
  | .omitEmpty => { t with omitEmpty := true }
  | .stop => { t with stop := true }
  | .unknownSize => { t with size := .unknown }
  | .exactSize n => { t with size := .exact n }

/-- Options applied in order set a flag when one of them names it, and leave the size of the
last size option among them. -/
theorem Tag.foldl_set (os : List TagOption) (t : Tag) :
    os.foldl Tag.set t =
      { element := t.element, size := ((os.filterMap TagOption.size?).getLast?).getD t.size,
        omitEmpty := t.omitEmpty || decide (TagOption.omitEmpty ∈ os),
        stop := t.stop || decide (TagOption.stop ∈ os) } := by
  induction os generalizing t with
  | nil => simp
  | cons o os ih =>
    rw [List.foldl_cons, ih]
    cases o <;> simp [Tag.set, TagOption.size?, List.getLast?_cons]

/-- The exact sizes that options set are the sizes of their size options. -/
theorem TagOption.lastSize_eq_exact {os : List TagOption} {n : Nat}
    (h : TagOption.lastSize os = .exact n) : TagOption.exactSize n ∈ os := by
  unfold TagOption.lastSize at h
  cases hl : (os.filterMap TagOption.size?).getLast? with
  | none => simp [hl] at h
  | some s =>
    rw [hl, Option.getD_some] at h
    obtain ⟨o, ho, hs⟩ := List.mem_filterMap.mp (List.mem_of_getLast? hl)
    cases o <;> simp_all [TagOption.size?]

/-- Every exact size that option texts set fits 64 bits. -/
theorem OptionText.exactSize_le_of_forall₂ {options : List String} {os : List TagOption}
    (h : List.Forall₂ OptionText options os) {n : Nat} (hn : TagOption.exactSize n ∈ os) :
    n ≤ maxWord := by
  induction h with
  | nil => exact absurd hn List.not_mem_nil
  | cons ho _ ih =>
    rcases List.mem_cons.mp hn with heq | hn
    · rw [← heq] at ho
      exact ho.exactSize_le
    · exact ih hn

/-! ## A run of options -/

/-- A fold whose step succeeds exactly on the items that read as some choice, and then applies
that choice, succeeds exactly on the lists that read item by item as a list of choices, and gives
the choices applied in order. -/
theorem foldlM_eq_ok_iff {σ α β ε : Type} {f : σ → α → Except ε σ} {R : α → β → Prop}
    {g : σ → β → σ} (hf : ∀ s a s', f s a = .ok s' ↔ ∃ b, R a b ∧ s' = g s b) :
    ∀ (l : List α) (s s' : σ),
      l.foldlM f s = .ok s' ↔ ∃ bs, List.Forall₂ R l bs ∧ s' = bs.foldl g s
  | [], s, s' => by
    simp only [List.foldlM_nil, List.forall₂_nil_left_iff, exists_eq_left, List.foldl_nil]
    exact ⟨fun h => (Except.ok.inj h).symm, fun h => h ▸ rfl⟩
  | a :: l, s, s' => by
    rw [List.foldlM_cons]
    rcases hstep : f s a with e | s₁
    · -- the step fails, so no choice reads the item
      refine ⟨fun h => (nomatch h), fun hbs => ?_⟩
      obtain ⟨_, hl, -⟩ := hbs
      obtain ⟨b, _, hb, -, rfl⟩ := List.forall₂_cons_left_iff.mp hl
      exact nomatch hstep.symm.trans ((hf s a _).mpr ⟨b, hb, rfl⟩)
    · obtain ⟨b, hb, rfl⟩ := (hf s a s₁).mp hstep
      have hrest := foldlM_eq_ok_iff hf l (g s b) s'
      refine hrest.trans ⟨?_, ?_⟩
      · rintro ⟨bs, hbs, rfl⟩
        exact ⟨b :: bs, .cons hb hbs, rfl⟩
      · rintro ⟨_, hl, rfl⟩
        obtain ⟨b', bs, hb', hbs, rfl⟩ := List.forall₂_cons_left_iff.mp hl
        have hsame := hstep.symm.trans ((hf s a _).mpr ⟨b', hb', rfl⟩)
        rw [Except.ok.injEq] at hsame
        exact ⟨bs, hbs, by rw [List.foldl_cons, hsame]⟩

/-- One option: the reader accepts exactly the texts of options, and applies what each sets. -/
theorem Tag.applyOption_eq_ok_iff {text option : String} {t t' : Tag} :
    Tag.applyOption text t option = .ok t' ↔ ∃ o, OptionText option o ∧ t' = t.set o := by
  constructor
  · intro h
    unfold Tag.applyOption at h
    split at h
    · exact nomatch h
    split at h
    · rename_i hom
      obtain rfl : option = "omitempty" := beq_iff_eq.mp hom
      exact ⟨.omitEmpty, .omitEmpty, (Except.ok.inj h).symm⟩
    split at h
    · rename_i hunknown
      obtain rfl | rfl : option = "inf" ∨ option = "size=unknown" := by simpa using hunknown
      · exact ⟨.unknownSize, .inf, (Except.ok.inj h).symm⟩
      · exact ⟨.unknownSize, .unknown, (Except.ok.inj h).symm⟩
    split at h
    · rename_i hstop
      obtain rfl : option = "stop" := beq_iff_eq.mp hstop
      exact ⟨.stop, .stop, (Except.ok.inj h).symm⟩
    split at h
    · rename_i hsize
      dsimp only at h
      split at h
      · rename_i n hn
        have hw := parseWord?_eq_some_iff.mp hn
        refine ⟨.exactSize n, ?_, (Except.ok.inj h).symm⟩
        rw [eq_size_append (String.startsWith_string_iff.mp hsize)]
        exact .exact hw
      · exact nomatch h
    · exact nomatch h
  · rintro ⟨o, ho, rfl⟩
    cases ho with
    | omitEmpty => rfl
    | stop => rfl
    | inf => rfl
    | unknown => rfl
    | @exact digits n hw =>
      have hpre : "size=".toList <+: ("size=" ++ digits).toList := ⟨digits.toList, by simp⟩
      have hn := parseWord?_eq_some_iff.mpr hw
      simp [Tag.applyOption, OptionText.exact_ne hw, String.startsWith_string_iff.mpr hpre, hn,
        Tag.set]

/-! ## Schema names -/

/-- Every element is in the schema's list. -/
theorem Element.mem_all (e : Element) : e ∈ Element.all := by
  cases e <;> decide

/-- No two elements of the schema have one name. -/
theorem Element.name_injective : Function.Injective Element.name := by
  have hnodup : (Element.all.map Element.name).Nodup := by decide
  intro a b h
  exact List.inj_on_of_nodup_map hnodup (Element.mem_all a) (Element.mem_all b) h

/-- A name is looked up to the element that bears it. -/
theorem Element.ofName?_eq_some_iff {name : String} {e : Element} :
    Element.ofName? name = some e ↔ e.name = name := by
  constructor
  · intro h
    simpa using List.find?_some h
  · rintro rfl
    obtain ⟨x, hx⟩ : ∃ x, Element.ofName? e.name = some x :=
      Option.isSome_iff_exists.mp (List.find?_isSome.mpr ⟨e, Element.mem_all e, by simp⟩)
    have hname : x.name = e.name := by simpa using List.find?_some hx
    rwa [Element.name_injective hname] at hx

/-! ## Tags -/

/-- A tag's text whose first segment is an element's name is read as that element's options. -/
theorem Tag.parse_of_splitOn {text : String} {e : Element} {options : List String}
    (h : text.splitOn "," = e.name :: options) :
    Tag.parse text = options.foldlM (Tag.applyOption text) (Tag.plain e) := by
  rw [Tag.parse, h]
  simp only [Element.ofName?_eq_some_iff.mpr rfl]

/-- A tag's text whose first segment is an element's name reads exactly when the other segments
are options; the tag is the element's, with the options applied in order. -/
theorem Tag.parse_eq_ok_iff_of_splitOn {text : String} {e : Element} {options : List String}
    (h : text.splitOn "," = e.name :: options) {t : Tag} :
    Tag.parse text = .ok t ↔
      ∃ os, List.Forall₂ OptionText options os ∧ t = os.foldl Tag.set (Tag.plain e) := by
  rw [Tag.parse_of_splitOn h]
  exact foldlM_eq_ok_iff (f := Tag.applyOption text) (fun _ _ _ => Tag.applyOption_eq_ok_iff)
    options (Tag.plain e) t

/-- A tag's text reads exactly when it is a schema element's name followed by options; the tag
is that element's, with a flag set exactly when an option names it and the size of the last
size option, or the natural size when there is none. -/
theorem Tag.parse_eq_ok_iff {text : String} {t : Tag} :
    Tag.parse text = .ok t ↔
      ∃ options os, text.splitOn "," = t.element.name :: options ∧
        List.Forall₂ OptionText options os ∧
        (t.omitEmpty = true ↔ TagOption.omitEmpty ∈ os) ∧
        (t.stop = true ↔ TagOption.stop ∈ os) ∧ t.size = TagOption.lastSize os := by
  constructor
  · intro h
    obtain ⟨e, options, hsplit⟩ : ∃ e options, text.splitOn "," = Element.name e :: options := by
      unfold Tag.parse at h
      split at h
      · exact nomatch h
      rename_i name options hsplit
      split at h
      · exact nomatch h
      rename_i e he
      exact ⟨e, options, by rw [hsplit, Element.ofName?_eq_some_iff.mp he]⟩
    obtain ⟨os, hos, rfl⟩ := (Tag.parse_eq_ok_iff_of_splitOn hsplit).mp h
    refine ⟨options, os, ?_, hos, ?_⟩
    · simp [Tag.foldl_set, Tag.plain, hsplit]
    · simp [Tag.foldl_set, Tag.plain, TagOption.lastSize]
  · rintro ⟨options, os, hsplit, hos, homit, hstop, hsize⟩
    refine (Tag.parse_eq_ok_iff_of_splitOn hsplit).mpr ⟨os, hos, ?_⟩
    rcases t with ⟨element, size, omitEmpty, stop⟩
    simp only at homit hstop hsize
    rw [Tag.foldl_set]
    simp only [Tag.plain, hsize, TagOption.lastSize, Bool.false_or, Tag.mk.injEq, true_and]
    constructor
    · cases omitEmpty <;> simp_all
    · cases stop <;> simp_all

end Ebml
