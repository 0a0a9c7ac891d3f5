import Ebml.Codegen.Derive
import Ebml.Proofs.DerivedTags

/-!
# How deriving reads the fields of a struct

Deriving reads the fields of a struct in order (`FieldScan.add`), over any frontend: a field
whose one `ebml` attribute reads as a tag (`Field.TagsAs`) is added unless an earlier field holds
its element, anything else wrong is reported, and a tag whose element name the frontend reads as
a raw identifier (`Field.NamesRaw`) stops the derivation. The main statement is
`derive_stops_only_on_raw_names`.
-/

namespace Ebml

namespace Codegen

open Tokens

variable {P : Frontend}

/-! ## One field -/

/-- The `ebml` attributes of a field. -/
def Field.ebmlAttrs (f : Field) : List Syntax.Attr :=
  f.attrs.filter fun (a : Syntax.Attr) => a.path.isIdent "ebml"

/-- The name a tag's text gives its element: the text's first segment, or the field's name in
Pascal case when that segment is empty. -/
def TagAttribute.elementName (text field : String) : String :=
  if ((text.splitOn ",").headD "").isEmpty then pascalCase field else (text.splitOn ",").headD ""

/-- A field's tag: its one `ebml` attribute holds one string, which reads as the tag. -/
def Field.TagsAs (P : Frontend) (f : Field) (tag : TagAttribute) : Prop :=
  ∃ a text, f.ebmlAttrs = [a] ∧ P.tagText a = .ok text ∧ TagAttribute.parse P text f.name.1 = .ok tag

/-- A field whose one `ebml` attribute holds one string whose element name is the one raw
identifier `r#n`. -/
def Field.NamesRaw (P : Frontend) (f : Field) (n : String) : Prop :=
  ∃ a text, f.ebmlAttrs = [a] ∧ P.tagText a = .ok text ∧
    P.nameIdent (TagAttribute.elementName text f.name.1) = some (n, true)

/-- A name is a raw identifier `r#n` exactly when it lexes to that one identifier: a raw
identifier may always be a name. -/
theorem nameIdent_eq_raw_iff {name n : String} :
    nameIdent name = some (n, true) ↔ lex name = some [.ident n true] := by
  unfold nameIdent
  constructor
  · intro h
    split at h
    · rename_i m raw hlex
      split at h
      · obtain ⟨rfl, rfl⟩ := Prod.mk.inj (Option.some.inj h)
        exact hlex
      · exact nomatch h
    · exact nomatch h
  · intro h
    rw [h]
    rfl

/-- Options are refused with a message and never stop the derivation. -/
theorem TagAttribute.option_ne_invalidIdent (t : TagAttribute) (option m : String) :
    t.option option ≠ .error (.invalidIdent m) := by
  unfold TagAttribute.option
  repeat' split
  all_goals simp

theorem TagAttribute.foldlM_option_ne_invalidIdent (options : List String) (t : TagAttribute)
    (m : String) : options.foldlM TagAttribute.option t ≠ .error (.invalidIdent m) := by
  induction options generalizing t with
  | nil => simp [pure, Except.pure]
  | cons o os ih =>
    rw [List.foldlM_cons]
    cases h : t.option o with
    | error fault =>
      intro hfault
      exact TagAttribute.option_ne_invalidIdent t o m (h.trans hfault)
    | ok t' => exact ih t'

/-- A tag's text stops the derivation exactly when the frontend reads its element name as a raw
identifier, which it shows with its `r#`. -/
theorem TagAttribute.parse_eq_invalidIdent_iff {text field m : String} :
    TagAttribute.parse P text field = .error (.invalidIdent m) ↔
      ∃ n, P.nameIdent (TagAttribute.elementName text field) = some (n, true) ∧ m = "r#" ++ n := by
  unfold TagAttribute.parse TagAttribute.elementName
  dsimp only
  split
  · rename_i hnone
    simp only [Except.error.injEq, reduceCtorEq, false_iff, not_exists, not_and]
    intro n hraw
    rw [hnone] at hraw
    exact nomatch hraw
  · rename_i n hraw
    simp only [hraw, Except.error.injEq, TagFault.invalidIdent.injEq, TokenTree.identText, if_true,
      Option.some.injEq, Prod.mk.injEq, and_true]
    exact ⟨fun h => ⟨n, rfl, h.symm⟩, fun ⟨k, hk, hm⟩ => hk ▸ hm.symm⟩
  · rename_i n hplain
    refine ⟨fun h => absurd h (TagAttribute.foldlM_option_ne_invalidIdent _ _ _), ?_⟩
    rintro ⟨k, hk, -⟩
    rw [hplain] at hk
    simp at hk

/-- A field names at most one raw element. -/
theorem Field.NamesRaw.unique {f : Field} {n n' : String} (h : f.NamesRaw P n) (h' : f.NamesRaw P n') :
    n = n' := by
  obtain ⟨a, text, hattrs, htext, hlex⟩ := h
  obtain ⟨a', text', hattrs', htext', hlex'⟩ := h'
  obtain rfl : a = a' := List.singleton_inj.mp (hattrs.symm.trans hattrs')
  obtain rfl : text = text' := Except.ok.inj (htext.symm.trans htext')
  simpa using hlex.symm.trans hlex'

/-! ## The scan of one field -/

section Step

variable {scan scan' : FieldScan} {f : Field}

/-- A field without an `ebml` attribute leaves the scan as it was. -/
theorem FieldScan.add_of_untagged (h : f.ebmlAttrs = []) : scan.add P f = .ok scan := by
  unfold Field.ebmlAttrs at h
  unfold FieldScan.add
  simp only [h]

/-- A field that reads as a tag is added when no earlier field holds its element, and reported
with the element's name otherwise. -/
theorem FieldScan.add_of_tagsAs {tag : TagAttribute} (h : f.TagsAs P tag) :
    scan.add P f =
      if tag.element ∈ scan.seen then
        .ok { scan with errors :=
          ("Element `" ++ tag.element ++ "` is already assigned to another field") :: scan.errors }
      else
        .ok { scan with tagged := scan.tagged ++ [⟨f.name, tag⟩], seen := tag.element :: scan.seen } := by
  obtain ⟨a, text, hattrs, htext, hparse⟩ := h
  unfold Field.ebmlAttrs at hattrs
  unfold FieldScan.add
  simp only [hattrs, htext, hparse, List.contains_iff_mem]

/-- A field that names its element by a raw identifier stops the derivation, showing the name
with its `r#`. -/
theorem FieldScan.add_of_namesRaw {n : String} (h : f.NamesRaw P n) :
    scan.add P f = .error ("r#" ++ n) := by
  obtain ⟨a, text, hattrs, htext, hraw⟩ := h
  have hparse : TagAttribute.parse P text f.name.1 = .error (.invalidIdent ("r#" ++ n)) :=
    TagAttribute.parse_eq_invalidIdent_iff.mpr ⟨n, hraw, rfl⟩
  unfold Field.ebmlAttrs at hattrs
  unfold FieldScan.add
  simp only [hattrs, htext, hparse]

/-- What one field can do: it has no `ebml` attribute, or it reads as a tag, or it names its
element by a raw identifier, or it is reported and left out. -/
theorem FieldScan.add_cases (P : Frontend) (scan : FieldScan) (f : Field) :
    f.ebmlAttrs = [] ∨ (∃ tag, f.TagsAs P tag) ∨ (∃ n, f.NamesRaw P n) ∨
      ∃ msg, scan.add P f = .ok { scan with errors := msg :: scan.errors } := by
  unfold FieldScan.add
  dsimp only
  split
  · rename_i hnil
    exact .inl hnil
  · exact .inr (.inr (.inr ⟨_, rfl⟩))
  · rename_i a hattrs
    split
    · exact .inr (.inr (.inr ⟨_, rfl⟩))
    · rename_i text htext
      split
      · rename_i m hparse
        obtain ⟨n, hraw, -⟩ := TagAttribute.parse_eq_invalidIdent_iff.mp hparse
        exact .inr (.inr (.inl ⟨n, a, text, hattrs, htext, hraw⟩))
      · exact .inr (.inr (.inr ⟨_, rfl⟩))
      · rename_i tag hparse
        exact .inr (.inl ⟨tag, a, text, hattrs, htext, hparse⟩)

/-- A field stops the derivation exactly when it names its element by a raw identifier, whatever
the fields before it gave. -/
theorem FieldScan.add_eq_error_iff {m : String} :
    scan.add P f = .error m ↔ ∃ n, f.NamesRaw P n ∧ m = "r#" ++ n := by
  refine ⟨fun h => ?_, fun ⟨n, hraw, hm⟩ => hm ▸ FieldScan.add_of_namesRaw hraw⟩
  rcases FieldScan.add_cases P scan f with hnil | ⟨tag, htag⟩ | ⟨n, hraw⟩ | ⟨msg, hmsg⟩
  · rw [FieldScan.add_of_untagged hnil] at h
    exact nomatch h
  · rw [FieldScan.add_of_tagsAs htag] at h
    split at h <;> exact nomatch h
  · rw [FieldScan.add_of_namesRaw hraw] at h
    exact ⟨n, hraw, (Except.error.inj h).symm⟩
  · rw [hmsg] at h
    exact nomatch h

/-- A field adds to the report and to the elements held, and takes nothing from either. -/
theorem FieldScan.add_grows (h : scan.add P f = .ok scan') :
    (∃ added, scan'.errors = added ++ scan.errors) ∧ ∀ e ∈ scan.seen, e ∈ scan'.seen := by
  rcases FieldScan.add_cases P scan f with hnil | ⟨tag, htag⟩ | ⟨n, hraw⟩ | ⟨msg, hmsg⟩
  · rw [FieldScan.add_of_untagged hnil] at h
    cases h
    exact ⟨⟨[], rfl⟩, fun _ he => he⟩
  · rw [FieldScan.add_of_tagsAs htag] at h
    split at h <;> cases h
    · exact ⟨⟨[_], rfl⟩, fun _ he => he⟩
    · exact ⟨⟨[], rfl⟩, fun _ he => List.mem_cons_of_mem _ he⟩
  · rw [FieldScan.add_of_namesRaw hraw] at h
    exact nomatch h
  · rw [hmsg] at h
    cases h
    exact ⟨⟨[msg], rfl⟩, fun _ he => he⟩

/-- After a field that reads as a tag, its element is held. -/
theorem FieldScan.holds_of_tagsAs {tag : TagAttribute} (htag : f.TagsAs P tag)
    (h : scan.add P f = .ok scan') : tag.element ∈ scan'.seen := by
  rw [FieldScan.add_of_tagsAs htag] at h
  split at h <;> cases h
  · assumption
  · exact List.mem_cons_self

/-- A field whose element is already held is reported, naming the element. -/
theorem FieldScan.reports_held {tag : TagAttribute} (htag : f.TagsAs P tag)
    (hheld : tag.element ∈ scan.seen) (h : scan.add P f = .ok scan') :
    ("Element `" ++ tag.element ++ "` is already assigned to another field") ∈ scan'.errors := by
  rw [FieldScan.add_of_tagsAs htag, if_pos hheld] at h
  cases h
  exact List.mem_cons_self

end Step

/-! ## Runs over the fields -/

section Run

variable {fs : List Field} {scan scan' : FieldScan}

/-- A run over `f :: fs` reads `f`, then the rest from where `f` left the scan. -/
theorem foldlM_add_cons_ok {f : Field} (h : (f :: fs).foldlM (FieldScan.add P) scan = .ok scan') :
    ∃ s, scan.add P f = .ok s ∧ fs.foldlM (FieldScan.add P) s = .ok scan' := by
  rw [List.foldlM_cons] at h
  cases hstep : scan.add P f with
  | error e =>
    rw [hstep] at h
    exact nomatch h
  | ok s =>
    rw [hstep] at h
    exact ⟨s, rfl, h⟩

/-- A run over `pre ++ rest` reads `pre`, then `rest` from where `pre` left the scan. -/
theorem foldlM_add_append_ok {pre : List Field}
    (h : (pre ++ fs).foldlM (FieldScan.add P) scan = .ok scan') :
    ∃ s, pre.foldlM (FieldScan.add P) scan = .ok s ∧ fs.foldlM (FieldScan.add P) s = .ok scan' := by
  rw [List.foldlM_append] at h
  cases hpre : pre.foldlM (FieldScan.add P) scan with
  | error e =>
    rw [hpre] at h
    exact nomatch h
  | ok s =>
    rw [hpre] at h
    exact ⟨s, rfl, h⟩

/-- A run adds to the report and to the elements held, and takes nothing from either. -/
theorem foldlM_add_grows (h : fs.foldlM (FieldScan.add P) scan = .ok scan') :
    (∃ added, scan'.errors = added ++ scan.errors) ∧ ∀ e ∈ scan.seen, e ∈ scan'.seen := by
  induction fs generalizing scan with
  | nil =>
    cases h
    exact ⟨⟨[], rfl⟩, fun _ he => he⟩
  | cons f fs ih =>
    obtain ⟨s, hstep, hrest⟩ := foldlM_add_cons_ok h
    obtain ⟨⟨added, hadded⟩, hseen⟩ := FieldScan.add_grows hstep
    obtain ⟨⟨added', hadded'⟩, hseen'⟩ := ih hrest
    exact ⟨⟨added' ++ added, by rw [hadded', hadded, List.append_assoc]⟩,
      fun e he => hseen' e (hseen e he)⟩

/-- Reading fields stops exactly at the first field that names its element by a raw identifier,
showing that name with its `r#`. -/
theorem foldlM_add_eq_error_iff (P : Frontend) (fs : List Field) (scan : FieldScan) (m : String) :
    fs.foldlM (FieldScan.add P) scan = .error m ↔
      ∃ pre f post n, fs = pre ++ f :: post ∧ (∀ g ∈ pre, ∀ k, ¬ g.NamesRaw P k) ∧
        f.NamesRaw P n ∧ m = "r#" ++ n := by
  induction fs generalizing scan with
  | nil =>
    simp only [List.foldlM_nil, pure, Except.pure, reduceCtorEq, false_iff, not_exists, not_and]
    intro pre f post _ h
    exact absurd h.symm (List.append_ne_nil_of_right_ne_nil pre (List.cons_ne_nil f post))
  | cons g gs ih =>
    rw [List.foldlM_cons]
    cases hstep : scan.add P g with
    | error e =>
      obtain ⟨n, hraw, rfl⟩ := FieldScan.add_eq_error_iff.mp hstep
      simp only [bind, Except.bind, Except.error.injEq]
      constructor
      · rintro rfl
        exact ⟨[], g, gs, n, rfl, by simp, hraw, rfl⟩
      · rintro ⟨pre, f, post, k, hsplit, hpre, hf, rfl⟩
        cases pre with
        | nil =>
          obtain ⟨rfl, -⟩ := List.cons.inj hsplit
          rw [hraw.unique hf]
        | cons g' pre =>
          obtain ⟨rfl, -⟩ := List.cons.inj hsplit
          exact absurd hraw (hpre g List.mem_cons_self n)
    | ok s =>
      simp only [bind, Except.bind]
      have hnot : ∀ k, ¬ g.NamesRaw P k := fun k hk => by
        rw [FieldScan.add_of_namesRaw hk] at hstep
        exact nomatch hstep
      rw [ih s]
      constructor
      · rintro ⟨pre, f, post, n, rfl, hpre, hf, hm⟩
        refine ⟨g :: pre, f, post, n, rfl, ?_, hf, hm⟩
        intro g' hg'
        rcases List.mem_cons.mp hg' with rfl | hg'
        · exact hnot
        · exact hpre g' hg'
      · rintro ⟨pre, f, post, n, hsplit, hpre, hf, hm⟩
        cases pre with
        | nil =>
          obtain ⟨rfl, -⟩ := List.cons.inj hsplit
          exact absurd hf (hnot n)
        | cons g' pre =>
          obtain ⟨-, rfl⟩ := List.cons.inj hsplit
          exact ⟨pre, f, post, n, rfl, fun g'' hg'' => hpre g'' (List.mem_cons_of_mem _ hg''), hf, hm⟩

/-! ## Runs that report nothing -/

/-- The fields of a struct read without a report, after fields that hold the elements `seen`:
each field has no `ebml` attribute, or reads as a tag whose element no earlier field holds, and
the tagged fields are listed in order. -/
inductive CleanScan (P : Frontend) : List String → List Field → List TaggedField → Prop
  | nil (seen : List String) : CleanScan P seen [] []
  | untagged {seen : List String} {f : Field} {fs : List Field} {ts : List TaggedField} :
      f.ebmlAttrs = [] → CleanScan P seen fs ts → CleanScan P seen (f :: fs) ts
  | tagged {seen : List String} {f : Field} {tag : TagAttribute} {fs : List Field}
      {ts : List TaggedField} :
      f.TagsAs P tag → tag.element ∉ seen → CleanScan P (tag.element :: seen) fs ts →
      CleanScan P seen (f :: fs) (⟨f.name, tag⟩ :: ts)

/-- A run whose report ends empty started with an empty report and read its fields cleanly,
adding the tagged fields in order. -/
theorem cleanScan_of_foldlM (h : fs.foldlM (FieldScan.add P) scan = .ok scan')
    (hclean : scan'.errors = []) :
    scan.errors = [] ∧ ∃ ts, CleanScan P scan.seen fs ts ∧ scan'.tagged = scan.tagged ++ ts := by
  induction fs generalizing scan with
  | nil =>
    cases h
    exact ⟨hclean, [], .nil _, (List.append_nil _).symm⟩
  | cons f fs ih =>
    obtain ⟨s, hstep, hrest⟩ := foldlM_add_cons_ok h
    obtain ⟨hs, ts, hts, htagged⟩ := ih hrest
    -- a step that reports something leaves a report the run cannot take back
    have hquiet : ∀ msg, s.errors ≠ msg :: scan.errors := fun msg hmsg =>
      List.cons_ne_nil msg scan.errors (hmsg.symm.trans hs)
    rcases FieldScan.add_cases P scan f with hnil | ⟨tag, htag⟩ | ⟨n, hraw⟩ | ⟨msg, hmsg⟩
    · rw [FieldScan.add_of_untagged hnil] at hstep
      cases hstep
      exact ⟨hs, ts, .untagged hnil hts, htagged⟩
    · rw [FieldScan.add_of_tagsAs htag] at hstep
      split at hstep
      · cases hstep
        exact absurd rfl (hquiet _)
      · rename_i hfresh
        cases hstep
        refine ⟨hs, ⟨f.name, tag⟩ :: ts, .tagged htag hfresh hts, ?_⟩
        rw [htagged, List.append_assoc, List.singleton_append]
    · rw [FieldScan.add_of_namesRaw hraw] at hstep
      exact nomatch hstep
    · rw [hmsg] at hstep
      cases hstep
      exact absurd rfl (hquiet msg)

/-- The elements of a clean scan's tags are distinct, and none is held before it. -/
theorem CleanScan.nodup {seen : List String} {ts : List TaggedField} (h : CleanScan P seen fs ts) :
    (ts.map (·.tag.element)).Nodup ∧ ∀ t ∈ ts, t.tag.element ∉ seen := by
  induction h with
  | nil => exact ⟨List.nodup_nil, fun _ ht => nomatch ht⟩
  | untagged _ _ ih => exact ih
  | @tagged seen f tag fs ts _ hfresh _ ih =>
    obtain ⟨hnodup, hnew⟩ := ih
    refine ⟨List.nodup_cons.mpr ⟨?_, hnodup⟩, ?_⟩
    · -- a later tag's element is not held, and this one is
      simp only [List.mem_map, not_exists, not_and]
      intro t ht heq
      exact hnew t ht (heq ▸ List.mem_cons_self)
    · intro t ht
      rcases List.mem_cons.mp ht with rfl | ht
      · exact hfresh
      · exact fun hmem => hnew t ht (List.mem_cons_of_mem _ hmem)

/-- Two fields whose tags hold the same element: the later one is reported, naming the element,
whatever else the run reports. -/
theorem duplicate_reported {pre mid post : List Field} {f g : Field} {a b : TagAttribute}
    (hf : f.TagsAs P a) (hg : g.TagsAs P b) (hsame : a.element = b.element)
    (h : (pre ++ f :: mid ++ g :: post).foldlM (FieldScan.add P) scan = .ok scan') :
    ("Element `" ++ b.element ++ "` is already assigned to another field") ∈ scan'.errors := by
  rw [List.append_assoc, List.cons_append] at h
  obtain ⟨s₁, -, h₁⟩ := foldlM_add_append_ok h
  obtain ⟨s₂, hf₂, h₂⟩ := foldlM_add_cons_ok h₁
  obtain ⟨s₃, hmid, h₃⟩ := foldlM_add_append_ok h₂
  obtain ⟨s₄, hg₄, hpost⟩ := foldlM_add_cons_ok h₃
  have hheld : b.element ∈ s₃.seen :=
    (foldlM_add_grows hmid).2 _ (hsame ▸ FieldScan.holds_of_tagsAs hf hf₂)
  obtain ⟨⟨added, hadded⟩, -⟩ := foldlM_add_grows hpost
  rw [hadded]
  exact List.mem_append_right _ (FieldScan.reports_held hg hheld hg₄)

end Run

/-! ## Deriving -/

/-- Deriving stops, instead of reporting, exactly when the item is a struct with named fields
one of which names its element by a raw identifier `r#n`; it stops at the first such field,
showing `r#n`. Every other item gives its errors and its code. -/
theorem derive_stops_only_on_raw_names (P : Frontend) (it : Item) (failure : DeriveFailure) :
    deriveItem P it = .error failure ↔
      ∃ pre f post n, it.body = .named (pre ++ f :: post) ∧ (∀ g ∈ pre, ∀ k, ¬ g.NamesRaw P k) ∧
        f.NamesRaw P n ∧ failure = .invalidIdent ("r#" ++ n) := by
  unfold deriveItem
  cases hbody : it.body with
  | named fs =>
    simp only [Body.named.injEq]
    cases hrun : fs.foldlM (FieldScan.add P) {} with
    | error m =>
      obtain ⟨pre, f, post, n, hsplit, hpre, hf, rfl⟩ :=
        (foldlM_add_eq_error_iff P fs {} m).mp hrun
      simp only [Except.error.injEq]
      constructor
      · rintro rfl
        exact ⟨pre, f, post, n, hsplit, hpre, hf, rfl⟩
      · rintro ⟨pre', f', post', n', hsplit', hpre', hf', rfl⟩
        have hm := (foldlM_add_eq_error_iff P fs {} ("r#" ++ n')).mpr
          ⟨pre', f', post', n', hsplit', hpre', hf', rfl⟩
        rw [hrun] at hm
        rw [Except.error.inj hm]
    | ok scan =>
      simp only [reduceCtorEq, false_iff, not_exists, not_and]
      intro pre f post n hsplit hpre hf _
      have hm := (foldlM_add_eq_error_iff P fs {} ("r#" ++ n)).mpr
        ⟨pre, f, post, n, hsplit, hpre, hf, rfl⟩
      rw [hrun] at hm
      exact nomatch hm
  | tuple | unit | enum | union => simp

/-- The struct `struct S { #[ebml("r#match")] a: u64 }` as deriving receives it. -/
def rawMatchStruct : Item where
  name := ("S", false)
  generics := {}
  body := .named [⟨("a", false), [⟨⟨false, [("ebml", false)]⟩, .list .paren [.literal "\"r#match\""]⟩]⟩]

/-- Deriving that struct stops at the raw name `r#match` instead of reporting it. -/
theorem raw_match_tag_stops_derive :
    deriveItem Frontend.tokens rawMatchStruct = .error (.invalidIdent "r#match") := by
  have htext : tagText ⟨⟨false, [("ebml", false)]⟩, .list .paren [.literal "\"r#match\""]⟩ =
      .ok "r#match" := by
    have hview : (tagText ⟨⟨false, [("ebml", false)]⟩,
        .list .paren [.literal "\"r#match\""]⟩).toOption = some "r#match" := by
      decide +kernel
    revert hview
    cases tagText ⟨⟨false, [("ebml", false)]⟩, .list .paren [.literal "\"r#match\""]⟩ with
    | error e => intro h; cases h
    | ok text => intro h; cases h; rfl
  have hname : TagAttribute.elementName "r#match" "a" = "r#match" := by
    have hsplit : "r#match".splitOn "," = ["r#match"] := by
      simp +decide [String.splitOn, String.splitOnAux]
    simp [TagAttribute.elementName, hsplit]
  have hlex : (lex "r#match").any (TokenTree.beqList · [.ident "match" true]) = true := by
    decide +kernel
  have hraw : Field.NamesRaw Frontend.tokens ⟨("a", false), [⟨⟨false, [("ebml", false)]⟩,
      .list .paren [.literal "\"r#match\""]⟩]⟩ "match" :=
    ⟨_, _, rfl, htext, by rw [hname]; exact nameIdent_eq_raw_iff.mpr (eq_some_of_any_beqList hlex)⟩
  unfold deriveItem rawMatchStruct
  simp only [List.foldlM_cons, List.foldlM_nil, FieldScan.add_of_namesRaw hraw]
  rfl

end Codegen

end Ebml
