import Ebml.Codegen.Derive
import Ebml.Proofs.TagText

/-!
# Tags read when fields are derived

Deriving reads each field's tag a second time, by `Codegen.TagAttribute.parse`, and writes it as
an expression that builds the tag, whose value `Tag.ofExpr?` gives. The main statement,
`tag_text_readers_agree`, says that over any frontend that reads the schema's names as
identifiers both readers accept the same texts and that the expression evaluates to the tag the
reader of tags gives.
-/

namespace Ebml

namespace Tokens

/-! ## Comparing token trees -/

mutual
/-- Whether two trees are the same tree. -/
def TokenTree.beq : TokenTree → TokenTree → Bool
  | .group d ts, .group d' ts' => d == d' && TokenTree.beqList ts ts'
  | .ident n r, .ident n' r' => n == n' && r == r'
  | .punct c s, .punct c' s' => c == c' && s == s'
  | .literal t, .literal t' => t == t'
  | _, _ => false

/-- Whether two sequences of trees are the same. -/
def TokenTree.beqList : List TokenTree → List TokenTree → Bool
  | [], [] => true
  | a :: as, b :: bs => TokenTree.beq a b && TokenTree.beqList as bs
  | _, _ => false
end

mutual
theorem TokenTree.eq_of_beq : (a b : TokenTree) → TokenTree.beq a b = true → a = b
  | .group d ts, .group d' ts', h => by
    simp only [TokenTree.beq, Bool.and_eq_true, beq_iff_eq] at h
    rw [h.1, TokenTree.eq_of_beqList ts ts' h.2]
  | .ident n r, .ident n' r', h => by simp_all [TokenTree.beq]
  | .punct c s, .punct c' s', h => by simp_all [TokenTree.beq]
  | .literal t, .literal t', h => by simp_all [TokenTree.beq]
  | .group .., .ident .., h | .group .., .punct .., h | .group .., .literal .., h
  | .ident .., .group .., h | .ident .., .punct .., h | .ident .., .literal .., h
  | .punct .., .group .., h | .punct .., .ident .., h | .punct .., .literal .., h
  | .literal .., .group .., h | .literal .., .ident .., h | .literal .., .punct .., h => nomatch h

theorem TokenTree.eq_of_beqList : (as bs : List TokenTree) → TokenTree.beqList as bs = true → as = bs
  | [], [], _ => rfl
  | a :: as, b :: bs, h => by
    simp only [TokenTree.beqList, Bool.and_eq_true] at h
    rw [TokenTree.eq_of_beq a b h.1, TokenTree.eq_of_beqList as bs h.2]
  | [], _ :: _, h | _ :: _, [], h => nomatch h
end

/-- A lexing that a comparison confirms. -/
theorem eq_some_of_any_beqList {o : Option (List TokenTree)} {ts : List TokenTree}
    (h : o.any (TokenTree.beqList · ts) = true) : o = some ts := by
  cases o with
  | none => exact nomatch h
  | some us => rw [TokenTree.eq_of_beqList us ts h]

/-! ## Paths -/

/-- The trees of the path `::s₁::s₂::…`. -/
def pathTrees (segments : List String) : List TokenTree :=
  segments.flatMap fun s => [.punct ':' .joint, .punct ':' .alone, .word s]

/-- What follows the path `::s₁::s₂::…` at the front of the trees, if it is there. -/
def afterPath : List String → List TokenTree → Option (List TokenTree)
  | [], ts => some ts
  | s :: ss, .punct ':' .joint :: .punct ':' _ :: .ident n false :: ts =>
    if n = s then afterPath ss ts else none
  | _ :: _, _ => none

@[simp] theorem afterPath_pathTrees (segments : List String) (rest : List TokenTree) :
    afterPath segments (pathTrees segments ++ rest) = some rest := by
  induction segments with
  | nil => rfl
  | cons s ss ih => simpa [pathTrees, afterPath, TokenTree.word] using ih

/-- A path holds no hole of a template. -/
@[simp] theorem fillAll_pathTrees (holes : Holes) (segments : List String)
    (rest : List TokenTree) :
    fillAll holes (pathTrees segments ++ rest) = pathTrees segments ++ fillAll holes rest := by
  induction segments with
  | nil => rfl
  | cons s ss ih => simpa [pathTrees, fillAll, fillTree, TokenTree.word] using ih

/-! ## Integer literals -/

/-- The value of an integer literal of type `u64` in decimal digits with its suffix, such as
`8u64`; a literal beyond the type's range is refused. -/
def u64LiteralValue (text : String) : Option Nat :=
  match text.toList.reverse with
  | '4' :: '6' :: 'u' :: digits =>
    if digits ≠ [] ∧ digits.all Char.isDigit ∧ Nat.ofDigitChars 10 digits.reverse 0 ≤ maxWord then
      some (Nat.ofDigitChars 10 digits.reverse 0)
    else none
  | _ => none

/-- A literal written for a number of 64 bits has that number as its value. -/
theorem u64LiteralValue_u64Literal {n : Nat} (h : n ≤ maxWord) :
    u64LiteralValue (n.repr ++ "u64") = some n := by
  have htext : (n.repr ++ "u64").toList.reverse =
      '4' :: '6' :: 'u' :: (Nat.toDigits 10 n).reverse := by
    simp
  have hdigits : ∀ c ∈ Nat.toDigits 10 n, c.isDigit = true :=
    fun c hc => Nat.isDigit_of_mem_toDigits (by decide) (by decide) hc
  unfold u64LiteralValue
  rw [htext]
  simpa [Nat.toDigits_ne_nil, Nat.ofDigitChars_ten_toDigits, h] using hdigits

end Tokens

open Tokens

/-! ## The builder expression -/

namespace Tag

/-- The element that a path `::ebml_mux::ebml::ElementType::Name` names: the variants of the
element type bear the schema's names. -/
def elementOfExpr? (ts : List TokenTree) : Option Element :=
  match afterPath ["ebml_mux", "ebml", "ElementType"] ts with
  | some [.punct ':' .joint, .punct ':' _, .ident name false] => Element.ofName? name
  | _ => none

/-- The size that an expression `::ebml_mux::ebml::DeclaredSize::Variant` stands for. -/
def sizeOfExpr? (ts : List TokenTree) : Option DeclaredSize :=
  match afterPath ["ebml_mux", "ebml", "DeclaredSize"] ts with
  | some [.punct ':' .joint, .punct ':' _, .ident "Default" false] => some .natural
  | some [.punct ':' .joint, .punct ':' _, .ident "Unknown" false] => some .unknown
  | some [.punct ':' .joint, .punct ':' _, .ident "Exact" false, .group .paren [.literal text]] =>
    (u64LiteralValue text).map .exact
  | _ => none

/-- Applies the builder calls that follow a tag, each as the builder defines it: `.size(s)` sets
the size, `.omit_empty()` and `.stop()` set their flags. -/
def applyCalls (t : Tag) : List TokenTree → Option Tag
  | [] => some t
  | .punct '.' _ :: .ident "size" false :: .group .paren arg :: rest =>
    (sizeOfExpr? arg).bind fun s => applyCalls { t with size := s } rest
  | .punct '.' _ :: .ident "omit_empty" false :: .group .paren [] :: rest =>
    applyCalls { t with omitEmpty := true } rest
  | .punct '.' _ :: .ident "stop" false :: .group .paren [] :: rest =>
    applyCalls { t with stop := true } rest
  | _ => none

/-- The tag that a builder expression evaluates to: `::ebml_mux::ebml::Tag::new` applied to an
element, then builder calls. -/
def ofExpr? (ts : List TokenTree) : Option Tag :=
  match afterPath ["ebml_mux", "ebml", "Tag", "new"] ts with
  | some (.group .paren arg :: calls) =>
    (elementOfExpr? arg).bind fun e => applyCalls (Tag.plain e) calls
  | _ => none

end Tag

/-- Every schema name is one identifier that may name a variant. -/
theorem Element.nameIdent_name (e : Element) :
    e.name.isEmpty = false ∧ Codegen.nameIdent e.name = some (e.name, false) := by
  have hall : Element.all.all
      (fun e => !e.name.isEmpty && Codegen.nameIdent e.name == some (e.name, false)) = true := by
    decide +kernel
  simpa using List.all_eq_true.mp hall e (Element.mem_all e)

/-- A frontend reads every schema element's name as that one identifier, not raw. -/
def Codegen.Frontend.ReadsElementNames (P : Codegen.Frontend) : Prop :=
  ∀ e : Element, P.nameIdent e.name = some (e.name, false)

/-- The frontend of token trees reads the schema's names as identifiers. -/
theorem Codegen.Frontend.tokens_readsElementNames : Codegen.Frontend.tokens.ReadsElementNames :=
  fun e => (Element.nameIdent_name e).2

/-! ## The generated expression -/

namespace Codegen

/-! ### Lexing templates

A template is lexed in the kernel from the characters of its text, which `rfl` gives for a
literal; the kernel is slow to take a string apart itself. -/

/-- A lexing that a comparison confirms, as the trees a template stands for. -/
theorem getD_eq_of_any {o : Option (List TokenTree)} {t : List TokenTree}
    (h : o.any (TokenTree.beqList · t) = true) : o.getD [] = t := by
  rw [eq_some_of_any_beqList h, Option.getD_some]

/-- Lexing characters, as `lex` does once it has the characters of its text. -/
def lexChars (cs : List Char) : Option (List TokenTree) :=
  let cs := match cs with
    | '\uFEFF' :: rest => rest
    | cs => cs
  Lexer.run (cs.length + 1) cs [] []

theorem lex_eq_lexChars (s : String) : lex s = lexChars s.toList := rfl

/-- A template lexes as its characters do once its brackets are put back. -/
theorem any_lex_templateSource {text : String} {cs : List Char} {t : List TokenTree}
    (hcs : text = String.ofList cs)
    (hlex : (lexChars (cs.map fun c => if c = '⟪' then '\x7b' else if c = '⟫' then '\x7d' else c)).any
      (TokenTree.beqList · t) = true) :
    (lex (templateSource text)).any (TokenTree.beqList · t) = true := by
  rwa [lex_eq_lexChars, templateSource, String.toList_map, hcs, String.toList_ofList]

/-- The templates of a tag's expression lex to the trees of their paths and calls. -/
theorem tag_templates_lex :
    (lex (templateSource
        r##":: ebml_mux :: ebml :: Tag :: new (:: ebml_mux :: ebml :: ElementType :: $element)"##)).any
      (TokenTree.beqList · (pathTrees ["ebml_mux", "ebml", "Tag", "new"] ++
        [.group .paren (pathTrees ["ebml_mux", "ebml", "ElementType"] ++
          [.punct ':' .joint, .punct ':' .alone, .punct '$' .alone, .word "element"])])) = true ∧
    (lex (templateSource
        r##". size (:: ebml_mux :: ebml :: DeclaredSize :: Exact ($n))"##)).any
      (TokenTree.beqList · [.punct '.' .alone, .word "size",
        .group .paren (pathTrees ["ebml_mux", "ebml", "DeclaredSize"] ++
          [.punct ':' .joint, .punct ':' .alone, .word "Exact",
            .group .paren [.punct '$' .alone, .word "n"]])]) = true ∧
    (lex (templateSource r##". size (:: ebml_mux :: ebml :: DeclaredSize :: Unknown)"##)).any
      (TokenTree.beqList · [.punct '.' .alone, .word "size",
        .group .paren (pathTrees ["ebml_mux", "ebml", "DeclaredSize"] ++
          [.punct ':' .joint, .punct ':' .alone, .word "Unknown"])]) = true ∧
    (lex (templateSource r##". omit_empty ()"##)).any
      (TokenTree.beqList · [.punct '.' .alone, .word "omit_empty", .group .paren []]) = true ∧
    (lex (templateSource r##". stop ()"##)).any
      (TokenTree.beqList · [.punct '.' .alone, .word "stop", .group .paren []]) = true :=
  ⟨any_lex_templateSource rfl (by decide +kernel), any_lex_templateSource rfl (by decide +kernel),
    any_lex_templateSource rfl (by decide +kernel), any_lex_templateSource rfl (by decide +kernel),
    any_lex_templateSource rfl (by decide +kernel)⟩

/-- The size a tag is written with, as the library names it. -/
def DeclaredSize.toSize : DeclaredSize → Ebml.DeclaredSize
  | .default => .natural
  | .exact n => .exact n
  | .unknown => .unknown

/-- The tag that an attribute stands for, once its element is known. -/
def TagAttribute.toTag (a : TagAttribute) (e : Element) : Tag :=
  { element := e, size := a.size.toSize, omitEmpty := a.omitEmpty, stop := a.stop }

/-- The expression written for an attribute evaluates to the tag it stands for, when its element
is a schema element and its exact size fits 64 bits. -/
theorem TagAttribute.ofExpr?_trees (a : TagAttribute) (e : Element) (he : a.element = e.name)
    (hsize : ∀ n, a.size = .exact n → n ≤ maxWord) :
    Tag.ofExpr? a.trees = some (a.toTag e) := by
  obtain ⟨hbase, hexact, hunknown, homit, hstop⟩ := tag_templates_lex
  rcases a with ⟨element, size, omitEmpty, stop⟩
  simp only at he hsize
  subst he
  have hname : Element.ofName? e.name = some e := Element.ofName?_eq_some_iff.mpr rfl
  unfold TagAttribute.trees
  simp only [template, eq_some_of_any_beqList hbase, eq_some_of_any_beqList hexact,
    eq_some_of_any_beqList hunknown, eq_some_of_any_beqList homit, eq_some_of_any_beqList hstop,
    Option.getD_some]
  -- one case for each size and each flag the attribute may have
  cases size <;> cases omitEmpty <;> cases stop <;>
    simp_all [fillAll, fillTree, TokenTree.word, Tag.ofExpr?, Tag.elementOfExpr?, Tag.applyCalls,
      Tag.sizeOfExpr?, u64Literal, u64LiteralValue_u64Literal, Tag.plain, TagAttribute.toTag,
      DeclaredSize.toSize]

/-! ## The derive reader -/

/-- An attribute with one option's setting applied. -/
def TagAttribute.set (a : TagAttribute) : TagOption → TagAttribute
  | .omitEmpty => { a with omitEmpty := true }
  | .stop => { a with stop := true }
  | .unknownSize => { a with size := .unknown }
  | .exactSize n => { a with size := .exact n }

/-- Options applied to an attribute are the same options applied to the tag it stands for. -/
theorem TagAttribute.foldl_set_toTag (os : List TagOption) (a : TagAttribute) (e : Element) :
    (os.foldl TagAttribute.set a).toTag e = os.foldl Tag.set (a.toTag e) := by
  induction os generalizing a with
  | nil => rfl
  | cons o os ih =>
    rw [List.foldl_cons, List.foldl_cons, ih]
    cases o <;> rfl

/-- Options leave an attribute's element as it is. -/
theorem TagAttribute.element_foldl_set (os : List TagOption) (a : TagAttribute) :
    (os.foldl TagAttribute.set a).element = a.element := by
  induction os generalizing a with
  | nil => rfl
  | cons o os ih =>
    rw [List.foldl_cons, ih]
    cases o <;> rfl

private theorem lt_two_pow_iff_le_maxWord {v : Nat} : v < Nat.pow 2 64 ↔ v ≤ maxWord := by
  have hpos : 0 < Nat.pow 2 64 := Nat.two_pow_pos 64
  unfold maxWord
  omega

/-- Digits read without a check of each, which the reader makes beforehand. -/
theorem foldl_mul_ten (digits : List Char) (init : Nat) :
    digits.foldl (fun acc c => acc * 10 + (c.toNat - '0'.toNat)) init =
      Nat.ofDigitChars 10 digits init := by
  induction digits generalizing init with
  | nil => rfl
  | cons c rest ih => rw [List.foldl_cons, ih, Nat.ofDigitChars_cons, Nat.mul_comm]

/-- The derive reader of numbers accepts exactly the texts of numbers of 64 bits, with their
value. -/
theorem parseSize_eq_some_iff {text : String} {n : Nat} :
    parseSize text = some n ↔ DecimalWord text n := by
  unfold parseSize
  dsimp only
  split <;> rename_i h
  all_goals first
    | rw [decimalWord_of_plus h]
    | rw [decimalWord_of_unsigned h]
  all_goals
    rw [foldl_mul_ten, decimalDigits_iff, ← lt_two_pow_iff_le_maxWord]
    split
    · rename_i hbad
      simp only [Bool.or_eq_true, Bool.not_eq_true'] at hbad
      rcases hbad with hbad | hbad <;> simp [hbad]
    · rename_i hgood
      simp only [Bool.or_eq_true, Bool.not_eq_true', not_or, Bool.not_eq_false] at hgood
      simp only [hgood]
      split <;> rename_i hv <;> simp [hv]

/-- The two readers of a number agree. -/
theorem parseSize_eq_parseWord? (text : String) : parseSize text = parseWord? text :=
  Option.ext fun _ => parseSize_eq_some_iff.trans parseWord?_eq_some_iff.symm

/-- One option: the derive reader accepts exactly the texts of options, and applies what each
sets. -/
theorem TagAttribute.option_eq_ok_iff {a a' : TagAttribute} {option : String} :
    a.option option = .ok a' ↔ ∃ o, OptionText option o ∧ a' = a.set o := by
  constructor
  · intro h
    unfold TagAttribute.option at h
    split at h
    · exact nomatch h
    split at h
    · rename_i hom
      subst hom
      exact ⟨.omitEmpty, .omitEmpty, (Except.ok.inj h).symm⟩
    split at h
    · rename_i hunknown
      rcases hunknown with rfl | rfl
      · exact ⟨.unknownSize, .inf, (Except.ok.inj h).symm⟩
      · exact ⟨.unknownSize, .unknown, (Except.ok.inj h).symm⟩
    split at h
    · rename_i hstop
      subst hstop
      exact ⟨.stop, .stop, (Except.ok.inj h).symm⟩
    split at h
    · rename_i hsize
      split at h
      · rename_i n hn
        refine ⟨.exactSize n, ?_, (Except.ok.inj h).symm⟩
        rw [eq_size_append (List.isPrefixOf_iff_prefix.mp hsize)]
        exact .exact (parseSize_eq_some_iff.mp hn)
      · exact nomatch h
    · exact nomatch h
  · rintro ⟨o, ho, rfl⟩
    cases ho with
    | omitEmpty => rfl
    | stop => rfl
    | inf => rfl
    | unknown => rfl
    | exact hw =>
      simp [TagAttribute.option, OptionText.exact_ne hw, parseSize_eq_some_iff.mpr hw,
        TagAttribute.set]

/-- A derive attribute whose first segment is a schema element's name reads exactly when the
other segments are options; the attribute is the element's, with the options applied in order. -/
theorem TagAttribute.parse_eq_ok_iff_of_splitOn {P : Frontend} (hP : P.ReadsElementNames)
    {text field : String} {e : Element} {options : List String}
    (h : text.splitOn "," = e.name :: options) {a : TagAttribute} :
    TagAttribute.parse P text field = .ok a ↔
      ∃ os, List.Forall₂ OptionText options os ∧
        a = os.foldl TagAttribute.set { element := e.name } := by
  have hne := (Element.nameIdent_name e).1
  have hparse : TagAttribute.parse P text field =
      options.foldlM TagAttribute.option { element := e.name } := by
    unfold TagAttribute.parse
    simp only [h, List.headD_cons, List.tail_cons]
    rw [if_neg (by simp [hne]), hP e]
  rw [hparse]
  exact foldlM_eq_ok_iff (f := TagAttribute.option) (fun _ _ _ => TagAttribute.option_eq_ok_iff)
    options _ a

end Codegen

/-- The two readers of a tag's text agree. The reader of tags accepts exactly the texts made of
a schema element's name and options, and gives the tag they describe: a flag is set exactly when
an option names it, and the size is the last size option's, or the natural size. When a text's
first segment is a schema element's name, the derive reader, over any frontend that reads the
schema's names as identifiers, accepts it exactly when the reader of tags does, and the
expression it writes evaluates to the tag that the reader of tags gives. -/
theorem tag_text_readers_agree (P : Codegen.Frontend) (hP : P.ReadsElementNames) :
    (∀ (text : String) (t : Tag), Tag.parse text = .ok t ↔
      ∃ options os, text.splitOn "," = t.element.name :: options ∧
        List.Forall₂ OptionText options os ∧
        (t.omitEmpty = true ↔ TagOption.omitEmpty ∈ os) ∧
        (t.stop = true ↔ TagOption.stop ∈ os) ∧ t.size = TagOption.lastSize os) ∧
    ∀ (text field : String) (e : Element) (options : List String),
      text.splitOn "," = e.name :: options →
      ((∃ a, Codegen.TagAttribute.parse P text field = .ok a) ↔ ∃ t, Tag.parse text = .ok t) ∧
      ∀ a t, Codegen.TagAttribute.parse P text field = .ok a → Tag.parse text = .ok t →
        Tag.ofExpr? a.trees = some t := by
  refine ⟨fun _ _ => Tag.parse_eq_ok_iff, fun text field e options hsplit => ⟨⟨?_, ?_⟩, ?_⟩⟩
  · rintro ⟨a, ha⟩
    obtain ⟨os, hos, -⟩ := (Codegen.TagAttribute.parse_eq_ok_iff_of_splitOn hP hsplit).mp ha
    exact ⟨_, (Tag.parse_eq_ok_iff_of_splitOn hsplit).mpr ⟨os, hos, rfl⟩⟩
  · rintro ⟨t, ht⟩
    obtain ⟨os, hos, -⟩ := (Tag.parse_eq_ok_iff_of_splitOn hsplit).mp ht
    exact ⟨_, (Codegen.TagAttribute.parse_eq_ok_iff_of_splitOn hP hsplit).mpr ⟨os, hos, rfl⟩⟩
  · intro a t ha ht
    obtain ⟨os, hos, rfl⟩ := (Codegen.TagAttribute.parse_eq_ok_iff_of_splitOn hP hsplit).mp ha
    have hsame := Codegen.TagAttribute.foldl_set_toTag os { element := e.name } e
    have ht' : Tag.parse text = .ok (os.foldl Tag.set (Tag.plain e)) :=
      (Tag.parse_eq_ok_iff_of_splitOn hsplit).mpr ⟨os, hos, rfl⟩
    obtain rfl := Except.ok.inj (ht.symm.trans ht')
    have hplain : ({ element := e.name } : Codegen.TagAttribute).toTag e = Tag.plain e := rfl
    rw [← hplain, ← hsame]
    refine Codegen.TagAttribute.ofExpr?_trees _ e (Codegen.TagAttribute.element_foldl_set os _) ?_
    intro n hn
    have hlast : TagOption.lastSize os = .exact n := by
      have hsize := congrArg Tag.size hsame
      simp only [Codegen.TagAttribute.toTag, hn, Codegen.DeclaredSize.toSize, Tag.foldl_set] at hsize
      exact hsize.symm
    exact OptionText.exactSize_le_of_forall₂ hos (TagOption.lastSize_eq_exact hlast)

/-- `SeekPosition,size=8,omitempty` is read alike by both readers. -/
theorem seek_position_tag_read_alike :
    Codegen.Frontend.tokens.ReadsElementNames ∧
    ∃ a, Codegen.TagAttribute.parse Codegen.Frontend.tokens "SeekPosition,size=8,omitempty"
        "position" = .ok a ∧
      Tag.ofExpr? a.trees =
        some { element := .seekPosition, size := .exact 8, omitEmpty := true } := by
  have hsplit : "SeekPosition,size=8,omitempty".splitOn "," =
      Element.seekPosition.name :: ["size=" ++ "8", "omitempty"] := by
    simp +decide [String.splitOn, String.splitOnAux, Element.name, Element.spec]
  have hword : DecimalWord "8" 8 := .inl ⟨by simp, by simp, by decide, by decide⟩
  have hagree := tag_text_readers_agree Codegen.Frontend.tokens
    Codegen.Frontend.tokens_readsElementNames
  have ht : Tag.parse "SeekPosition,size=8,omitempty" =
      .ok { element := .seekPosition, size := .exact 8, omitEmpty := true } :=
    (hagree.1 _ _).mpr ⟨_, [.exactSize 8, .omitEmpty], hsplit,
      .cons (.exact hword) (.cons .omitEmpty .nil), by decide, by decide, rfl⟩
  obtain ⟨a, ha⟩ := (hagree.2 _ "position" _ _ hsplit).1.mpr ⟨_, ht⟩
  exact ⟨Codegen.Frontend.tokens_readsElementNames, a, ha, (hagree.2 _ _ _ _ hsplit).2 a _ ha ht⟩

end Ebml
