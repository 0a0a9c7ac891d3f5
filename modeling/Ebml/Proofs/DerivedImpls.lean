import Ebml.Proofs.DerivedFields

/-!
# The impls that deriving writes

`DerivedImpls.read` reads the methods of the derived impls off the generated trees: the entries
that `tagged_fields` pushes, the arms of `tagged_field_mut` and the conjuncts of `is_zero`, each
tag as the value its builder expression has. The main statement, `derived_impls_agree`, says
that for any frontend these agree with the struct's tagged fields, and that two fields holding
one element are reported instead.
-/

namespace Ebml

namespace Codegen

open Tokens

/-! ## The shape of the generated code -/

/-- A hole of a template, `$name`. -/
def hole (name : String) : List TokenTree := [.punct '$' .alone, .word name]

/-- The type of an entry, `(::ebml_mux::ebml::Tag, &dyn ::ebml_mux::ebml::Field)`. -/
def entryType : List TokenTree :=
  [.group .paren (pathTrees ["ebml_mux", "ebml", "Tag"] ++
    (([.punct ',' .alone, .punct '&' .alone, .word "dyn"] : List TokenTree) ++ pathTrees ["ebml_mux", "ebml", "Field"]))]

/-- The pair `(tag, field)` of an entry. -/
def entryPair (tag : List TokenTree) : TokenTree :=
  .group .paren (tag ++ ([.punct ',' .alone, .word "field"] : List TokenTree))

/-- `let field: &dyn ::ebml_mux::ebml::Field = &self.`, before the field an entry holds. -/
def entryLet : List TokenTree :=
  ([.word "let", .word "field", .punct ':' .alone, .punct '&' .alone, .word "dyn"] : List TokenTree) ++
    (pathTrees ["ebml_mux", "ebml", "Field"] ++
      ([.punct '=' .alone, .punct '&' .alone, .word "self", .punct '.' .alone] : List TokenTree))

/-- The statements of `tagged_fields` for one field:
`let field: &dyn … = &self.f; fields.push((tag, field));`. -/
def pushTrees (field tag : List TokenTree) : List TokenTree :=
  entryLet ++ (field ++ ([.punct ';' .alone, .word "fields", .punct '.' .alone, .word "push",
    .group .paren [entryPair tag], .punct ';' .alone] : List TokenTree))

/-- `let field: &mut dyn ::ebml_mux::ebml::Field = &mut self.`, before the field an arm gives. -/
def armLet : List TokenTree :=
  ([.word "let", .word "field", .punct ':' .alone, .punct '&' .alone, .word "mut", .word "dyn"] : List TokenTree) ++
    (pathTrees ["ebml_mux", "ebml", "Field"] ++
      ([.punct '=' .alone, .punct '&' .alone, .word "mut", .word "self", .punct '.' .alone] : List TokenTree))

/-- The arm of `tagged_field_mut` for one field: `::ebml_mux::ebml::ElementType::E => { let
field: &mut dyn … = &mut self.f; ::std::option::Option::Some((tag, field)) },`. -/
def armTrees (element field tag : List TokenTree) : List TokenTree :=
  pathTrees ["ebml_mux", "ebml", "ElementType"] ++ (TokenTree.punct ':' .joint :: .punct ':' .alone ::
    (element ++ ([.punct '=' .joint, .punct '>' .alone,
      .group .brace (armLet ++ (field ++ .punct ';' .alone ::
        (pathTrees ["std", "option", "Option", "Some"] ++ ([.group .paren [entryPair tag]] : List TokenTree)))),
      .punct ',' .alone] : List TokenTree)))

/-- The last arm, `_ => ::std::option::Option::None,`. -/
def wildcardArm : List TokenTree :=
  ([.word "_", .punct '=' .joint, .punct '>' .alone] : List TokenTree) ++
    (pathTrees ["std", "option", "Option", "None"] ++ ([.punct ',' .alone] : List TokenTree))

/-- The conjunct of `is_zero` for one field: `&& ::ebml_mux::ebml::Field::is_zero(&self.f)`. -/
def zeroCheckTrees (field : List TokenTree) : List TokenTree :=
  ([.punct '&' .joint, .punct '&' .alone] : List TokenTree) ++ (pathTrees ["ebml_mux", "ebml", "Field", "is_zero"] ++
    ([.group .paren (([.punct '&' .alone, .word "self", .punct '.' .alone] : List TokenTree) ++ field)] : List TokenTree))

/-- The body of `tagged_fields`: `let mut fields: ::std::vec::Vec<entry> =
::std::vec::Vec::with_capacity(count);`, the pushes, then `fields`. -/
def fieldsBody (entry count pushes : List TokenTree) : List TokenTree :=
  .word "let" :: .word "mut" :: .word "fields" :: .punct ':' .alone ::
    (pathTrees ["std", "vec", "Vec"] ++ (TokenTree.punct '<' .alone :: (entry ++ (TokenTree.punct '>' .alone ::
      .punct '=' .alone :: (pathTrees ["std", "vec", "Vec", "with_capacity"] ++
        (TokenTree.group .paren count :: .punct ';' .alone :: (pushes ++ ([.word "fields"] : List TokenTree))))))))

/-- The methods of the `Tagged` impl: `tagged_fields`, then `tagged_field_mut`, a `match` on the
element with the arms and the wildcard arm. -/
def taggedMethods (entry count pushes arms : List TokenTree) : List TokenTree :=
  .word "fn" :: .word "tagged_fields" :: .group .paren [.punct '&' .alone, .word "self"] ::
    .punct '-' .joint :: .punct '>' .alone :: (pathTrees ["std", "vec", "Vec"] ++
    (TokenTree.punct '<' .alone :: (entry ++ (TokenTree.punct '>' .alone ::
    .group .brace (fieldsBody entry count pushes) ::
  .word "fn" :: .word "tagged_field_mut" ::
    .group .paren (([.punct '&' .alone, .word "mut", .word "self", .punct ',' .alone,
      .word "element", .punct ':' .alone] : List TokenTree) ++
      (pathTrees ["ebml_mux", "ebml", "ElementType"] ++ ([.punct ',' .alone] : List TokenTree))) ::
    .punct '-' .joint :: .punct '>' .alone :: (pathTrees ["std", "option", "Option"] ++
    (TokenTree.punct '<' .alone ::
    .group .paren (pathTrees ["ebml_mux", "ebml", "Tag"] ++
      (([.punct ',' .alone, .punct '&' .alone, .word "mut", .word "dyn"] : List TokenTree) ++
        pathTrees ["ebml_mux", "ebml", "Field"])) ::
    [.punct '>' .alone,
      .group .brace [.word "match", .word "element", .group .brace (arms ++ wildcardArm)]]))))))

/-- The methods of the `Field` impl: `value`, `is_zero` (`true` and the zero checks) and
`master_mut`. -/
def fieldMethods (zeroChecks : List TokenTree) : List TokenTree :=
  .word "fn" :: .word "value" :: .group .paren [.punct '&' .alone, .word "self"] ::
    .punct '-' .joint :: .punct '>' .alone :: (pathTrees ["ebml_mux", "ebml", "ValueRef"] ++
    (TokenTree.punct '<' .alone :: .punct '\'' .joint :: .word "_" :: .punct '>' .alone ::
    .group .brace (pathTrees ["ebml_mux", "ebml", "ValueRef", "Master"] ++
      ([.group .paren [.word "self"]] : List TokenTree)) ::
  .word "fn" :: .word "is_zero" :: .group .paren [.punct '&' .alone, .word "self"] ::
    .punct '-' .joint :: .punct '>' .alone :: .word "bool" :: .group .brace (.word "true" :: zeroChecks) ::
  .word "fn" :: .word "master_mut" :: .group .paren [.punct '&' .alone, .word "mut", .word "self"] ::
    .punct '-' .joint :: .punct '>' .alone :: (pathTrees ["std", "option", "Option"] ++
    (TokenTree.punct '<' .alone :: .punct '&' .alone :: .word "mut" :: .word "dyn" ::
    (pathTrees ["ebml_mux", "ebml", "Tagged"] ++ ([.punct '>' .alone,
      .group .brace (pathTrees ["std", "option", "Option", "Some"] ++
        ([.group .paren [.word "self"]] : List TokenTree))] : List TokenTree))))))

/-- The head of an impl of one of the library's traits for a struct:
`impl<…> ::ebml_mux::ebml::Trait for Name<…> where …`, followed by `rest`. -/
def implHead (implG name typeG whereC : List TokenTree) (trait : String) (rest : List TokenTree) :
    List TokenTree :=
  .word "impl" :: (implG ++ (pathTrees ["ebml_mux", "ebml", trait] ++ (TokenTree.word "for" ::
    (name ++ (typeG ++ (whereC ++ rest))))))

/-- The two impls, given what fills their holes. -/
def implsTrees (implG name typeG whereC entry count pushes arms zeroChecks : List TokenTree) :
    List TokenTree :=
  implHead implG name typeG whereC "Tagged"
    (.group .brace (taggedMethods entry count pushes arms) ::
      implHead implG name typeG whereC "Field" [.group .brace (fieldMethods zeroChecks)])

/-! ## Filling the templates

Each template is lexed in the kernel from the characters of its text (`any_lex_templateSource`). -/

theorem template_getD {text : String} {cs : List Char} {t : List TokenTree}
    (hcs : text = String.ofList cs)
    (hlex : (lexChars (cs.map fun c => if c = '⟪' then '\x7b' else if c = '⟫' then '\x7d' else c)).any
      (TokenTree.beqList · t) = true) :
    (lex (templateSource text)).getD [] = t :=
  getD_eq_of_any (any_lex_templateSource hcs hlex)

theorem TaggedField.push_eq (f : TaggedField) : f.push = pushTrees [f.ident] f.tag.trees := by
  unfold TaggedField.push template
  rw [template_getD (t := pushTrees (hole "field") (hole "tag")) ?chars ?lexes]
  · rfl
  case chars => rfl
  case lexes => decide +kernel

theorem TaggedField.arm_eq (f : TaggedField) :
    f.arm = armTrees [.word f.tag.element] [f.ident] f.tag.trees := by
  unfold TaggedField.arm template
  rw [template_getD (t := armTrees (hole "element") (hole "field") (hole "tag")) ?chars ?lexes]
  · rfl
  case chars => rfl
  case lexes => decide +kernel

theorem TaggedField.zeroCheck_eq (f : TaggedField) : f.zeroCheck = zeroCheckTrees [f.ident] := by
  unfold TaggedField.zeroCheck template
  rw [template_getD (t := zeroCheckTrees (hole "field")) ?chars ?lexes]
  · rfl
  case chars => rfl
  case lexes => decide +kernel

theorem entry_template :
    template r##"(:: ebml_mux :: ebml :: Tag , & dyn :: ebml_mux :: ebml :: Field)"## [] = entryType := by
  unfold template
  rw [template_getD (t := entryType) ?chars ?lexes]
  · rfl
  case chars => rfl
  case lexes => decide +kernel

theorem deriveCode_eq (name : String × Bool) (g : Generics) (fields : List TaggedField) :
    deriveCode name g fields =
      implsTrees g.implTrees [.ident name.1 name.2] g.typeTrees g.whereTrees entryType
        [usizeLiteral fields.length] (fields.flatMap TaggedField.push)
        (fields.flatMap TaggedField.arm) (fields.flatMap TaggedField.zeroCheck) := by
  unfold deriveCode
  rw [entry_template]
  unfold template
  rw [template_getD (t := implsTrees (hole "implGenerics") (hole "name") (hole "typeGenerics")
    (hole "whereClause") (hole "entry") (hole "count") (hole "pushes") (hole "arms")
    (hole "zeroChecks")) ?chars ?lexes]
  · -- the zero checks end their block, where filling leaves an empty tail
    conv_rhs => rw [← List.append_nil (fields.flatMap TaggedField.zeroCheck)]
    rfl
  case chars => rfl
  case lexes => decide +kernel

/-! ## Reading the generated code -/

mutual
/-- A tree compares equal to itself. -/
theorem TokenTree.beq_self : (t : TokenTree) → TokenTree.beq t t = true
  | .group d ts => by rw [TokenTree.beq, TokenTree.beqList_self ts]; simp
  | .ident n r => by simp [TokenTree.beq]
  | .punct c s => by simp [TokenTree.beq]
  | .literal text => by simp [TokenTree.beq]

/-- A sequence of trees compares equal to itself. -/
theorem TokenTree.beqList_self : (ts : List TokenTree) → TokenTree.beqList ts ts = true
  | [] => rfl
  | t :: ts => by rw [TokenTree.beqList, TokenTree.beq_self t, TokenTree.beqList_self ts]; rfl
end

/-- The trees after `pre`, if the trees start with it. -/
def expect (pre ts : List TokenTree) : Option (List TokenTree) :=
  if TokenTree.beqList pre (ts.take pre.length) then some (ts.drop pre.length) else none

@[simp] theorem expect_nil (ts : List TokenTree) : expect [] ts = some ts := by
  simp [expect, TokenTree.beqList]

@[simp] theorem expect_cons (t : TokenTree) (pre ts : List TokenTree) :
    expect (t :: pre) (t :: ts) = expect pre ts := by
  simp [expect, TokenTree.beqList, TokenTree.beq_self]

@[simp] theorem expect_append (pre rest : List TokenTree) : expect pre (pre ++ rest) = some rest := by
  induction pre with
  | nil => exact expect_nil rest
  | cons t pre ih => rw [List.cons_append, expect_cons, ih]

theorem expect_length {pre ts rest : List TokenTree} (h : expect pre ts = some rest) :
    rest.length ≤ ts.length := by
  unfold expect at h
  split at h
  · cases h
    simp
  · cases h

theorem afterPath_length {segments : List String} {ts rest : List TokenTree}
    (h : afterPath segments ts = some rest) : rest.length ≤ ts.length := by
  fun_induction afterPath segments ts with
  | case1 =>
    cases h
    exact Nat.le_refl _
  | case2 _ _ _ _ ih =>
    have := ih h
    simp only [List.length_cons]
    omega
  | case3 | case4 => cases h

/-- The tag of an entry `(tag, field)`: the builder expression before its last comma. -/
def entryTag? (entry : List TokenTree) : Option Tag :=
  match entry.reverse with
  | .ident "field" false :: .punct ',' _ :: tag => Tag.ofExpr? tag.reverse
  | _ => none

/-- The entries that the statements of `tagged_fields` push, up to the final `fields`: each is
`let field: &dyn … = &self.f; fields.push((tag, field));`. -/
def readPushes (ts : List TokenTree) : Option (List (Tag × (String × Bool))) :=
  if TokenTree.beqList ts [.word "fields"] then some []
  else
    match _ : expect entryLet ts with
    | some (.ident f raw :: .punct ';' _ :: .ident "fields" false :: .punct '.' _ ::
        .ident "push" false :: .group .paren [.group .paren entry] :: .punct ';' _ :: more) =>
      (entryTag? entry).bind fun tag => (readPushes more).map ((tag, (f, raw)) :: ·)
    | _ => none
termination_by ts.length
decreasing_by
  have := expect_length ‹expect entryLet ts = _›
  simp only [List.length_cons] at this
  omega

/-- `let mut fields: ::std::vec::Vec<entry> = ::std::vec::Vec::with_capacity`, which starts the
body of `tagged_fields`. -/
def fieldsLet : List TokenTree :=
  ([.word "let", .word "mut", .word "fields", .punct ':' .alone] : List TokenTree) ++
    (pathTrees ["std", "vec", "Vec"] ++ (TokenTree.punct '<' .alone :: (entryType ++
      (TokenTree.punct '>' .alone :: .punct '=' .alone :: pathTrees ["std", "vec", "Vec", "with_capacity"]))))

/-- The entries that the body of `tagged_fields` returns: it makes a vector and pushes them. -/
def readTaggedFields (body : List TokenTree) : Option (List (Tag × (String × Bool))) :=
  match expect fieldsLet body with
  | some (.group .paren _ :: .punct ';' _ :: stmts) => readPushes stmts
  | _ => none

/-- What the block of an arm gives: `let field: &mut dyn … = &mut self.f;
::std::option::Option::Some((tag, field))` gives the tag and the field `f`. -/
def armResult (body : List TokenTree) : Option (Tag × (String × Bool)) :=
  match expect armLet body with
  | some (.ident f raw :: .punct ';' _ :: rest) =>
    match afterPath ["std", "option", "Option", "Some"] rest with
    | some [.group .paren [.group .paren entry]] => (entryTag? entry).map (·, (f, raw))
    | _ => none
  | _ => none

/-- The arms of the `match` in `tagged_field_mut`, each an element with what its block gives, up
to the wildcard arm. -/
def readArms (ts : List TokenTree) : Option (List (Element × Tag × (String × Bool))) :=
  if TokenTree.beqList ts wildcardArm then some []
  else
    match _ : afterPath ["ebml_mux", "ebml", "ElementType"] ts with
    | some (.punct ':' .joint :: .punct ':' _ :: .ident v false :: .punct '=' .joint ::
        .punct '>' _ :: .group .brace body :: .punct ',' _ :: more) =>
      (Element.ofName? v).bind fun e => (armResult body).bind fun r =>
        (readArms more).map ((e, r) :: ·)
    | _ => none
termination_by ts.length
decreasing_by
  have := afterPath_length ‹afterPath _ ts = _›
  simp only [List.length_cons] at this
  omega

/-- The fields whose zero tests follow `true` in `is_zero`, each
`&& ::ebml_mux::ebml::Field::is_zero(&self.f)`. -/
def readConjuncts (ts : List TokenTree) : Option (List (String × Bool)) :=
  match ts with
  | [] => some []
  | .punct '&' .joint :: .punct '&' _ :: rest =>
    match _ : afterPath ["ebml_mux", "ebml", "Field", "is_zero"] rest with
    | some (.group .paren [.punct '&' _, .ident "self" false, .punct '.' _, .ident f raw] :: more) =>
      (readConjuncts more).map ((f, raw) :: ·)
    | _ => none
  | _ => none
termination_by ts.length
decreasing_by
  have := afterPath_length ‹afterPath _ rest = _›
  simp only [List.length_cons] at this ⊢
  omega

mutual
/-- The methods of an impl's block, by name with their blocks. -/
def readMethods : List TokenTree → Option (List (String × List TokenTree))
  | [] => some []
  | .ident "fn" false :: .ident name false :: rest => readSignature name rest
  | _ => none

/-- Passes over a method's signature to its block, then reads the methods after it. -/
def readSignature (name : String) : List TokenTree → Option (List (String × List TokenTree))
  | [] => none
  | .group .brace body :: rest => (readMethods rest).map ((name, body) :: ·)
  | _ :: rest => readSignature name rest
end

/-- The block of the method of an impl's block with the given name. -/
def methodBody (block : List TokenTree) (name : String) : Option (List TokenTree) :=
  (readMethods block).bind (·.lookup name)

/-- What the impls derived for a struct say: the entries that `tagged_fields` lists, each a tag
and a field; the arms of `tagged_field_mut`, each an element with the tag and field it gives;
and the fields whose zero tests `is_zero` joins. -/
structure DerivedImpls where
  listed : List (Tag × (String × Bool))
  arms : List (Element × Tag × (String × Bool))
  zeroChecked : List (String × Bool)

/-- The head of an impl of one of the library's traits for a struct and its generics. -/
def Item.implHeadOf (it : Item) (trait : String) : List TokenTree :=
  implHead it.generics.implTrees [.ident it.name.1 it.name.2] it.generics.typeTrees
    it.generics.whereTrees trait []

/-- Reads the impls derived for a struct: the `Tagged` impl with `tagged_fields` and
`tagged_field_mut`, then the `Field` impl with `is_zero`, each for the struct and its generics. -/
def DerivedImpls.read (it : Item) (ts : List TokenTree) : Option DerivedImpls :=
  match expect (it.implHeadOf "Tagged") ts with
  | some (.group .brace tagged :: rest) =>
    match expect (it.implHeadOf "Field") rest with
    | some [.group .brace field] => do
      let listed ← (methodBody tagged "tagged_fields").bind readTaggedFields
      let arms ← ((methodBody tagged "tagged_field_mut").bind
        (expect [.word "match", .word "element"])).bind (fun
          | [.group .brace arms] => readArms arms
          | _ => none)
      let zeroChecked ← ((methodBody field "is_zero").bind
        (expect [.word "true"])).bind readConjuncts
      pure ⟨listed, arms, zeroChecked⟩
    | _ => none
  | _ => none

/-- What `tagged_field_mut` gives for an element: the block of the first arm for it, as a `match`
runs, or nothing from the wildcard arm. -/
def DerivedImpls.fieldMut (d : DerivedImpls) (e : Element) : Option (Tag × (String × Bool)) :=
  (d.arms.find? (·.1 == e)).map (·.2)

/-- What `is_zero` gives, given the zero test of each field: `true` and each conjunct. -/
def DerivedImpls.isZero (d : DerivedImpls) (zero : String × Bool → Bool) : Bool :=
  d.zeroChecked.foldl (fun acc f => acc && zero f) true

/-! ## What the generated code says -/

theorem entryTag?_entryPair (tag : List TokenTree) :
    entryTag? (tag ++ ([.punct ',' .alone, .word "field"] : List TokenTree)) = Tag.ofExpr? tag := by
  simp [entryTag?, TokenTree.word]

/-- One push statement is read as the entry it pushes. -/
theorem readPushes_push (n : String) (raw : Bool) (tag rest : List TokenTree) :
    readPushes (pushTrees [.ident n raw] tag ++ rest) =
      (Tag.ofExpr? tag).bind fun t => (readPushes rest).map ((t, (n, raw)) :: ·) := by
  have hstart : TokenTree.beqList (pushTrees [.ident n raw] tag ++ rest) [.word "fields"] = false := by
    simp [pushTrees, entryLet, TokenTree.beqList, TokenTree.beq, TokenTree.word]
  have hlet : expect entryLet (pushTrees [.ident n raw] tag ++ rest) =
      some (.ident n raw :: .punct ';' .alone :: .ident "fields" false :: .punct '.' .alone ::
        .ident "push" false :: .group .paren [.group .paren (tag ++ ([.punct ',' .alone, .word "field"] : List TokenTree))] ::
        .punct ';' .alone :: rest) := by
    simp [pushTrees, entryPair, TokenTree.word]
  rw [readPushes, if_neg (by simp [hstart])]
  split
  · next heq =>
    rw [hlet] at heq
    cases heq
    rw [entryTag?_entryPair]
  · next hno => exact absurd hlet (hno _ _ _ _ _ _ _)

theorem readPushes_fields : readPushes [.word "fields"] = some [] := by
  rw [readPushes, if_pos (TokenTree.beqList_self _)]

/-- The push statements of the tagged fields are read as their entries, in order. -/
theorem readPushes_pushes (fields : List TaggedField) :
    readPushes (fields.flatMap TaggedField.push ++ ([.word "fields"] : List TokenTree)) =
      fields.mapM fun f => (Tag.ofExpr? f.tag.trees).map (·, f.name) := by
  induction fields with
  | nil => exact readPushes_fields
  | cons f fs ih =>
    rw [List.flatMap_cons, List.append_assoc, TaggedField.push_eq, TaggedField.ident,
      readPushes_push, ih, List.mapM_cons]
    cases Tag.ofExpr? f.tag.trees with
    | none => rfl
    | some t => exact Option.map_eq_bind

/-- The block of an arm is read as the tag and field it gives. -/
theorem armResult_arm (n : String) (raw : Bool) (tag : List TokenTree) :
    armResult (armLet ++ (TokenTree.ident n raw :: .punct ';' .alone ::
      (pathTrees ["std", "option", "Option", "Some"] ++ ([.group .paren [entryPair tag]] : List TokenTree)))) =
      (Tag.ofExpr? tag).map (·, (n, raw)) := by
  simp [armResult, entryPair, entryTag?_entryPair]

/-- One arm is read as its element with the tag and field its block gives. -/
theorem readArms_arm (v n : String) (raw : Bool) (tag rest : List TokenTree) :
    readArms (armTrees [.word v] [.ident n raw] tag ++ rest) =
      (Element.ofName? v).bind fun e => (Tag.ofExpr? tag).bind fun t =>
        (readArms rest).map ((e, t, (n, raw)) :: ·) := by
  have hstart : TokenTree.beqList (armTrees [.word v] [.ident n raw] tag ++ rest) wildcardArm =
      false := by
    simp [armTrees, wildcardArm, pathTrees, TokenTree.beqList, TokenTree.beq, TokenTree.word]
  have hpath : afterPath ["ebml_mux", "ebml", "ElementType"]
      (armTrees [.word v] [.ident n raw] tag ++ rest) =
      some (.punct ':' .joint :: .punct ':' .alone :: .ident v false :: .punct '=' .joint ::
        .punct '>' .alone :: .group .brace (armLet ++ (TokenTree.ident n raw :: .punct ';' .alone ::
          (pathTrees ["std", "option", "Option", "Some"] ++ ([.group .paren [entryPair tag]] : List TokenTree)))) ::
        .punct ',' .alone :: rest) := by
    simp [armTrees, TokenTree.word]
  rw [readArms, if_neg (by simp [hstart])]
  split
  · next heq =>
    rw [hpath] at heq
    cases heq
    rw [armResult_arm]
    cases Element.ofName? v <;> cases Tag.ofExpr? tag <;> simp
  · next hno => exact absurd hpath (hno _ _ _ _ _ _)

theorem readArms_wildcard : readArms wildcardArm = some [] := by
  rw [readArms, if_pos (TokenTree.beqList_self _)]

/-- The arms of the tagged fields are read as their elements with their entries, in order. -/
theorem readArms_arms (fields : List TaggedField) :
    readArms (fields.flatMap TaggedField.arm ++ wildcardArm) =
      fields.mapM fun f => (Element.ofName? f.tag.element).bind fun e =>
        (Tag.ofExpr? f.tag.trees).map fun t => (e, t, f.name) := by
  induction fields with
  | nil => exact readArms_wildcard
  | cons f fs ih =>
    rw [List.flatMap_cons, List.append_assoc, TaggedField.arm_eq, TaggedField.ident,
      readArms_arm, ih, List.mapM_cons]
    cases Element.ofName? f.tag.element with
    | none => rfl
    | some e =>
      cases Tag.ofExpr? f.tag.trees with
      | none => rfl
      | some t => exact Option.map_eq_bind

/-- One zero check is read as the field it tests. -/
theorem readConjuncts_zeroCheck (n : String) (raw : Bool) (rest : List TokenTree) :
    readConjuncts (zeroCheckTrees ([.ident n raw] : List TokenTree) ++ rest) =
      (readConjuncts rest).map ((n, raw) :: ·) := by
  have hpath : afterPath ["ebml_mux", "ebml", "Field", "is_zero"]
      (pathTrees ["ebml_mux", "ebml", "Field", "is_zero"] ++
        (TokenTree.group .paren [.punct '&' .alone, .ident "self" false, .punct '.' .alone, .ident n raw] :: rest)) =
      some (.group .paren [.punct '&' .alone, .ident "self" false, .punct '.' .alone, .ident n raw] :: rest) :=
    afterPath_pathTrees _ _
  simp only [zeroCheckTrees, List.cons_append, List.nil_append, List.append_assoc]
  rw [readConjuncts]
  split
  · next heq =>
    simp only [TokenTree.word] at heq
    rw [hpath] at heq
    cases heq
    rfl
  · next hno => exact absurd hpath (hno _ _ _ _ _)

/-- The zero checks of the tagged fields are read as those fields, in order. -/
theorem readConjuncts_zeroChecks (fields : List TaggedField) :
    readConjuncts (fields.flatMap TaggedField.zeroCheck) = some (fields.map (·.name)) := by
  induction fields with
  | nil => rw [List.flatMap_nil, List.map_nil, readConjuncts]
  | cons f fs ih =>
    rw [List.flatMap_cons, TaggedField.zeroCheck_eq, TaggedField.ident, readConjuncts_zeroCheck, ih]
    rfl

theorem implHead_eq_append (implG name typeG whereC : List TokenTree) (trait : String)
    (rest : List TokenTree) :
    implHead implG name typeG whereC trait rest = implHead implG name typeG whereC trait [] ++ rest := by
  simp [implHead]

/-- The methods of the `Tagged` impl are `tagged_fields` and `tagged_field_mut`, with their
blocks. -/
theorem readMethods_taggedMethods (count pushes arms : List TokenTree) :
    readMethods (taggedMethods entryType count pushes arms) =
      some [("tagged_fields", fieldsBody entryType count pushes),
        ("tagged_field_mut", [.word "match", .word "element", .group .brace (arms ++ wildcardArm)])] := by
  simp [taggedMethods, readMethods, readSignature, pathTrees, entryType, TokenTree.word]

theorem methodBody_taggedFields (count pushes arms : List TokenTree) :
    methodBody (taggedMethods entryType count pushes arms) "tagged_fields" =
      some (fieldsBody entryType count pushes) := by
  simp only [methodBody, readMethods_taggedMethods, Option.bind_some, List.lookup_cons,
    beq_self_eq_true]

theorem methodBody_taggedFieldMut (count pushes arms : List TokenTree) :
    methodBody (taggedMethods entryType count pushes arms) "tagged_field_mut" =
      some [.word "match", .word "element", .group .brace (arms ++ wildcardArm)] := by
  simp only [methodBody, readMethods_taggedMethods, Option.bind_some, List.lookup_cons,
    beq_self_eq_true, String.reduceBEq]

/-- The block of `is_zero` is `true` and the zero checks. -/
theorem methodBody_isZero (zeroChecks : List TokenTree) :
    methodBody (fieldMethods zeroChecks) "is_zero" = some (.word "true" :: zeroChecks) := by
  simp [methodBody, fieldMethods, readMethods, readSignature, pathTrees, TokenTree.word,
    List.lookup_cons]

theorem readTaggedFields_fieldsBody (count pushes : List TokenTree) :
    readTaggedFields (fieldsBody entryType count pushes) =
      readPushes (pushes ++ ([.word "fields"] : List TokenTree)) := by
  have hbody : fieldsBody entryType count pushes =
      fieldsLet ++ (TokenTree.group .paren count :: .punct ';' .alone ::
        (pushes ++ ([.word "fields"] : List TokenTree))) := by
    simp [fieldsBody, fieldsLet]
  simp only [readTaggedFields, hbody, expect_append]

/-- The impls are read as the entries their pushes list, their arms, and their zero checks. -/
theorem DerivedImpls.read_implsTrees (it : Item) (count pushes arms zeroChecks : List TokenTree) :
    DerivedImpls.read it (implsTrees it.generics.implTrees [.ident it.name.1 it.name.2]
        it.generics.typeTrees it.generics.whereTrees entryType count pushes arms zeroChecks) =
      (do
        let listed ← readPushes (pushes ++ ([.word "fields"] : List TokenTree))
        let arms ← readArms (arms ++ wildcardArm)
        let zeroChecked ← readConjuncts zeroChecks
        pure ⟨listed, arms, zeroChecked⟩) := by
  unfold DerivedImpls.read implsTrees
  rewrite [implHead_eq_append _ _ _ _ "Tagged", implHead_eq_append _ _ _ _ "Field"]
  simp only [Item.implHeadOf, expect_append]
  -- the method bodies are found by name first, so no name is compared under a binder
  rewrite [methodBody_taggedFields, methodBody_taggedFieldMut, methodBody_isZero]
  simp only [readTaggedFields_fieldsBody, Option.bind_eq_bind, Option.bind_some, expect_cons,
    expect_nil]

/-- The derived impls are read as the entries, arms and zero checks of the tagged fields, in
order. -/
theorem DerivedImpls.read_deriveCode (it : Item) (fields : List TaggedField) :
    DerivedImpls.read it (deriveCode it.name it.generics fields) =
      (do
        let listed ← fields.mapM fun f => (Tag.ofExpr? f.tag.trees).map (·, f.name)
        let arms ← fields.mapM fun f => (Element.ofName? f.tag.element).bind fun e =>
          (Tag.ofExpr? f.tag.trees).map fun t => (e, t, f.name)
        pure ⟨listed, arms, fields.map (·.name)⟩) := by
  rewrite [deriveCode_eq, DerivedImpls.read_implsTrees, readPushes_pushes, readArms_arms,
    readConjuncts_zeroChecks]
  rfl

/-! ## Tags of a clean scan -/

section Frontend

variable {P : Frontend}

/-- Options set the size of an attribute only to the sizes they name. -/
theorem TagAttribute.size_foldl_set (os : List TagOption) (a : TagAttribute) {n : Nat}
    (h : (os.foldl TagAttribute.set a).size = .exact n) :
    a.size = .exact n ∨ TagOption.exactSize n ∈ os := by
  induction os generalizing a with
  | nil => exact .inl h
  | cons o os ih =>
    rcases ih (a.set o) h with hset | hmem
    · cases o with
      | omitEmpty | stop => exact .inl hset
      | unknownSize => cases hset
      | exactSize m =>
        cases hset
        exact .inr List.mem_cons_self
    · exact .inr (List.mem_cons_of_mem _ hmem)

/-- A tag that deriving reads has an exact size that fits 64 bits. -/
theorem TagAttribute.parse_size_le {P : Frontend} {text field : String} {tag : TagAttribute}
    (h : TagAttribute.parse P text field = .ok tag) (n : Nat) (hn : tag.size = .exact n) :
    n ≤ maxWord := by
  unfold TagAttribute.parse at h
  dsimp only at h
  split at h
  · cases h
  · cases h
  · obtain ⟨os, hos, rfl⟩ := (foldlM_eq_ok_iff (f := TagAttribute.option)
      (fun _ _ _ => TagAttribute.option_eq_ok_iff) _ _ _).mp h
    rcases TagAttribute.size_foldl_set os _ hn with hstart | hmem
    · cases hstart
    · exact OptionText.exactSize_le_of_forall₂ hos hmem

/-- A field's tag that names a schema element is read back where it is written: the expression
evaluates to the tag it stands for, and the element's name to the element. -/
theorem Field.TagsAs.read {f : Field} {tag : TagAttribute} {e : Element} (htag : f.TagsAs P tag)
    (he : tag.element = e.name) :
    Tag.ofExpr? tag.trees = some (tag.toTag e) ∧ Element.ofName? tag.element = some e := by
  obtain ⟨_, _, _, _, hparse⟩ := htag
  exact ⟨TagAttribute.ofExpr?_trees tag e he (TagAttribute.parse_size_le hparse),
    Element.ofName?_eq_some_iff.mpr he.symm⟩

/-- What a clean scan's tagged fields are read as, when every tag names a schema element: the
entries hold the fields that carry an `ebml` attribute, in order, each with the tag its attribute
stands for; each arm is an entry under its tag's element; and the zero checks are the entries'
fields. Induction on the scan, one field at a time. -/
theorem CleanScan.read_entries {seen : List String} {fs : List Field} {ts : List TaggedField}
    (h : CleanScan P seen fs ts)
    (hnames : ∀ f ∈ fs, ∀ a, f.TagsAs P a → ∃ e : Element, a.element = e.name) :
    ∃ listed : List (Tag × (String × Bool)),
      ts.mapM (fun t => (Tag.ofExpr? t.tag.trees).map (·, t.name)) = some listed ∧
      ts.mapM (fun t => (Element.ofName? t.tag.element).bind fun e =>
        (Tag.ofExpr? t.tag.trees).map fun tg => (e, tg, t.name)) =
        some (listed.map fun x => (x.1.element, x)) ∧
      listed.map (·.1.element.name) = ts.map (·.tag.element) ∧
      listed.map (·.2) = ts.map (·.name) ∧
      List.Forall₂ (fun f x => x.2 = f.name ∧ ∃ a e, f.TagsAs P a ∧ a.element = e.name ∧ x.1 = a.toTag e)
        (fs.filter fun f => !f.ebmlAttrs.isEmpty) listed := by
  induction h with
  | nil => exact ⟨[], rfl, rfl, rfl, rfl, .nil⟩
  | untagged hnil _ ih =>
    obtain ⟨listed, hl, ha, hn, hz, hf⟩ := ih fun g hg => hnames g (List.mem_cons_of_mem _ hg)
    refine ⟨listed, hl, ha, hn, hz, ?_⟩
    rw [List.filter_cons_of_neg (by simp [hnil])]
    exact hf
  | @tagged seen f tag fs ts htag _ _ ih =>
    obtain ⟨listed, hl, ha, hn, hz, hf⟩ := ih fun g hg => hnames g (List.mem_cons_of_mem _ hg)
    obtain ⟨e, he⟩ := hnames f List.mem_cons_self tag htag
    obtain ⟨hexpr, hname⟩ := htag.read he
    obtain ⟨a, text, hattrs, -⟩ := id htag
    refine ⟨(tag.toTag e, f.name) :: listed, ?_, ?_, ?_, ?_, ?_⟩
    · simp [List.mapM_cons, hexpr, hl]
    · simp [List.mapM_cons, hexpr, hname, ha, TagAttribute.toTag]
    · simp [hn, TagAttribute.toTag, he]
    · simp [hz]
    · rw [List.filter_cons_of_pos (by simp [hattrs])]
      exact .cons ⟨rfl, tag, e, htag, he, rfl⟩ hf

/-- In a list whose keys are distinct, the first entry with a key is the only one with it. -/
theorem find?_eq_some_iff_filter {α β : Type} [DecidableEq β] (key : α → β) {l : List α}
    (hl : (l.map key).Nodup) (b : β) (x : α) :
    l.find? (key · == b) = some x ↔ l.filter (key · == b) = [x] := by
  induction l with
  | nil => simp
  | cons y l ih =>
    rw [List.map_cons, List.nodup_cons] at hl
    by_cases hy : key y = b
    · -- the head has the key, and no later entry has it
      have hrest : l.filter (key · == b) = [] := by
        rw [List.filter_eq_nil_iff]
        intro z hz hzb
        exact hl.1 (hy ▸ List.mem_map.mpr ⟨z, hz, by simpa using hzb⟩)
      simp [hy, hrest]
    · simp [hy, ih hl.2]

/-- Deriving that gives an expansion has scanned every field: its errors are the scan's, in
order, and its code is printed from the scan's tagged fields. -/
theorem deriveItem_eq_ok {P : Frontend} {it : Item} {fs : List Field} {x : Expansion}
    (hbody : it.body = .named fs) (h : deriveItem P it = .ok x) :
    ∃ scan, fs.foldlM (FieldScan.add P) {} = .ok scan ∧ x.errors = scan.errors.reverse ∧
      x.code = TokenTree.printAll (deriveCode it.name it.generics scan.tagged) := by
  unfold deriveItem at h
  rw [hbody] at h
  dsimp only at h
  split at h
  · cases h
  · next scan hrun =>
    cases h
    exact ⟨scan, hrun, rfl, rfl⟩

end Frontend

/-- `is_zero` is the conjunction of the zero tests of the fields it checks. -/
theorem DerivedImpls.isZero_eq_all (d : DerivedImpls) (zero : String × Bool → Bool) :
    d.isZero zero = d.zeroChecked.all zero := by
  unfold DerivedImpls.isZero
  -- the conjunction so far is carried along the fold
  suffices h : ∀ (fs : List (String × Bool)) (acc : Bool),
      fs.foldl (fun acc f => acc && zero f) acc = (acc && fs.all zero) by
    rw [h, Bool.true_and]
  intro fs
  induction fs with
  | nil => simp
  | cons f fs ih =>
    intro acc
    rw [List.foldl_cons, ih, List.all_cons, Bool.and_assoc]

/-- When each arm is an entry under its tag's element, finding by element finds the first entry
with that element. -/
theorem DerivedImpls.fieldMut_of_entries (listed : List (Tag × (String × Bool)))
    (zeroChecked : List (String × Bool)) (e : Element) :
    DerivedImpls.fieldMut ⟨listed, listed.map (fun x => (x.1.element, x)), zeroChecked⟩ e =
      listed.find? (·.1.element == e) := by
  simp [DerivedImpls.fieldMut, List.find?_map, Function.comp_def]

/-- The impls derived for a struct agree with its fields. When deriving reports nothing and
every tag names a schema element, the code is printed from trees that read as impls whose list
holds exactly the fields carrying an `ebml` attribute, in order, each with the tag its attribute
stands for; `tagged_field_mut` gives an entry exactly when it is the only listed one for the
element, and nothing for an element no listed field holds; and `is_zero` is the conjunction of
the listed fields' zero tests. A struct with two fields for one element is reported instead. -/
theorem derived_impls_agree (P : Frontend) :
    (∀ (it : Item) (fs : List Field) (code : String), it.body = .named fs →
      deriveItem P it = .ok ⟨[], code⟩ →
      (∀ f ∈ fs, ∀ a, f.TagsAs P a → ∃ e : Element, a.element = e.name) →
      ∃ trees d, code = TokenTree.printAll trees ∧ DerivedImpls.read it trees = some d ∧
        List.Forall₂
          (fun f x => x.2 = f.name ∧ ∃ a e, f.TagsAs P a ∧ a.element = e.name ∧ x.1 = a.toTag e)
          (fs.filter fun f => !f.ebmlAttrs.isEmpty) d.listed ∧
        (∀ e tag field, d.fieldMut e = some (tag, field) ↔
          d.listed.filter (·.1.element == e) = [(tag, field)]) ∧
        (∀ e, d.fieldMut e = none ↔ ∀ x ∈ d.listed, x.1.element ≠ e) ∧
        ∀ zero, d.isZero zero = (d.listed.map (·.2)).all zero) ∧
    ∀ (it : Item) (pre mid post : List Field) (f g : Field) (a b : TagAttribute),
      it.body = .named (pre ++ f :: mid ++ g :: post) → f.TagsAs P a → g.TagsAs P b →
      a.element = b.element → ∀ x, deriveItem P it = .ok x →
      ("Element `" ++ b.element ++ "` is already assigned to another field") ∈ x.errors := by
  refine ⟨fun it fs code hbody hderive hnames => ?_, ?_⟩
  · obtain ⟨scan, hrun, herrors, hcode⟩ := deriveItem_eq_ok hbody hderive
    have hclean : scan.errors = [] := List.reverse_eq_nil_iff.mp herrors.symm
    obtain ⟨-, ts, hts, htagged⟩ := cleanScan_of_foldlM hrun hclean
    obtain ⟨listed, hl, ha, hnames', hzero, hfields⟩ := hts.read_entries hnames
    have hnodup : (listed.map (·.1.element)).Nodup := by
      refine List.Nodup.of_map Element.name ?_
      rw [List.map_map]
      exact hnames' ▸ hts.nodup.1
    refine ⟨deriveCode it.name it.generics scan.tagged,
      ⟨listed, listed.map (fun x => (x.1.element, x)), ts.map (·.name)⟩, hcode, ?_, hfields,
      fun e tag field => ?_, fun e => ?_, fun zero => ?_⟩
    · rw [DerivedImpls.read_deriveCode, htagged, List.nil_append, hl, ha]
      rfl
    · rw [DerivedImpls.fieldMut_of_entries]
      exact find?_eq_some_iff_filter (·.1.element) hnodup e (tag, field)
    · rw [DerivedImpls.fieldMut_of_entries, List.find?_eq_none]
      simp
    · rw [DerivedImpls.isZero_eq_all, hzero]
  · intro it pre mid post f g a b hbody hf hg hsame x hx
    obtain ⟨scan, hrun, herrors, -⟩ := deriveItem_eq_ok hbody hx
    rw [herrors, List.mem_reverse]
    exact duplicate_reported hf hg hsame hrun

/-- A field reads as at most one tag. -/
theorem Field.TagsAs.unique {P : Frontend} {f : Field} {a b : TagAttribute} (ha : f.TagsAs P a)
    (hb : f.TagsAs P b) :
    a = b := by
  obtain ⟨x, text, hattrs, htext, hparse⟩ := ha
  obtain ⟨x', text', hattrs', htext', hparse'⟩ := hb
  obtain rfl : x = x' := List.singleton_inj.mp (hattrs.symm.trans hattrs')
  obtain rfl : text = text' := Except.ok.inj (htext.symm.trans htext')
  exact Except.ok.inj (hparse.symm.trans hparse')

/-- The attribute `#[ebml("Timecode")]`. -/
def timecodeAttr : Syntax.Attr := ⟨⟨false, [("ebml", false)]⟩, .list .paren [.literal "\"Timecode\""]⟩

/-- `struct S { #[ebml("Timecode")] timecode: u64 }` as deriving receives it. -/
def timecodeStruct : Item where
  name := ("S", false)
  generics := {}
  body := .named [⟨("timecode", false), [timecodeAttr]⟩]

/-- `struct S { #[ebml("Timecode")] a: u64, #[ebml("Timecode")] b: u64 }` as deriving receives
it. -/
def twiceTimecodeStruct : Item where
  name := ("S", false)
  generics := {}
  body := .named [⟨("a", false), [timecodeAttr]⟩, ⟨("b", false), [timecodeAttr]⟩]

/-- A field with the attribute `#[ebml("Timecode")]` reads as the tag of `Timecode`. -/
theorem tagsAs_timecode (name : String × Bool) :
    Field.TagsAs Frontend.tokens ⟨name, [timecodeAttr]⟩ { element := Element.timecode.name } := by
  have htext : tagText timecodeAttr = .ok "Timecode" := by
    have hview : (tagText timecodeAttr).toOption = some "Timecode" := by
      decide +kernel
    revert hview
    cases tagText timecodeAttr with
    | error e => intro h; cases h
    | ok text => intro h; cases h; rfl
  have hsplit : "Timecode".splitOn "," = Element.timecode.name :: [] := by
    simp +decide [String.splitOn, String.splitOnAux, Element.name, Element.spec]
  exact ⟨timecodeAttr, "Timecode", rfl, htext,
    (TagAttribute.parse_eq_ok_iff_of_splitOn Frontend.tokens_readsElementNames hsplit).mpr
      ⟨[], .nil, rfl⟩⟩

/-- Deriving the struct with one field for `Timecode` reports nothing. -/
theorem deriveItem_timecodeStruct :
    deriveItem Frontend.tokens timecodeStruct = .ok ⟨[], TokenTree.printAll (deriveCode ("S", false) {}
      [⟨("timecode", false), { element := Element.timecode.name }⟩])⟩ := by
  unfold deriveItem timecodeStruct
  simp [FieldScan.add_of_tagsAs (tagsAs_timecode _)]

/-- Deriving the struct with two fields for `Timecode` gives an expansion: the duplicate is
reported, not fatal. -/
theorem deriveItem_twiceTimecodeStruct_ok :
    ∃ x, deriveItem Frontend.tokens twiceTimecodeStruct = .ok x := by
  cases hx : deriveItem Frontend.tokens twiceTimecodeStruct with
  | error failure =>
    unfold deriveItem twiceTimecodeStruct at hx
    simp [FieldScan.add_of_tagsAs (tagsAs_timecode _), bind, Except.bind, pure, Except.pure] at hx
  | ok x => exact ⟨x, rfl⟩

/-- Deriving a struct with one field for `Timecode` lists that field and finds it for the
element; deriving one with two fields for it reports the second. -/
theorem timecode_structs_derive :
    (∃ trees d, TokenTree.printAll (deriveCode ("S", false) {}
        [⟨("timecode", false), { element := Element.timecode.name }⟩]) = TokenTree.printAll trees ∧
      DerivedImpls.read timecodeStruct trees = some d ∧
      d.listed.map (·.2) = [("timecode", false)] ∧ (d.fieldMut .timecode).isSome) ∧
    ∃ x, deriveItem Frontend.tokens twiceTimecodeStruct = .ok x ∧
      ("Element `" ++ Element.timecode.name ++ "` is already assigned to another field") ∈
        x.errors := by
  constructor
  · have hnames : ∀ f ∈ [(⟨("timecode", false), [timecodeAttr]⟩ : Field)], ∀ a,
        f.TagsAs Frontend.tokens a → ∃ e : Element, a.element = e.name := by
      intro f hf a ha
      rw [List.mem_singleton] at hf
      subst hf
      exact ⟨.timecode, by rw [ha.unique (tagsAs_timecode _)]⟩
    obtain ⟨trees, d, hcode, hread, hfields, hmut, -, -⟩ :=
      (derived_impls_agree Frontend.tokens).1 timecodeStruct _ _ rfl deriveItem_timecodeStruct hnames
    have hfilter : ([(⟨("timecode", false), [timecodeAttr]⟩ : Field)].filter
        fun f => !f.ebmlAttrs.isEmpty) = [⟨("timecode", false), [timecodeAttr]⟩] := rfl
    rw [hfilter] at hfields
    generalize hlisted : d.listed = listed at hfields hmut
    obtain _ | ⟨⟨hname, a, e, ha, he, hx⟩, hrest⟩ := hfields
    cases hrest
    rename_i x
    obtain rfl : a = { element := Element.timecode.name } := ha.unique (tagsAs_timecode _)
    obtain rfl : e = .timecode := Element.name_injective he.symm
    refine ⟨trees, d, hcode, hread, by rw [hlisted, List.map_singleton, hname], ?_⟩
    have helement : x.1.element = .timecode := by
      rw [hx]
      rfl
    rw [Option.isSome_iff_exists]
    exact ⟨x, (hmut .timecode x.1 x.2).mpr (by simp [helement])⟩
  · obtain ⟨x, hx⟩ := deriveItem_twiceTimecodeStruct_ok
    exact ⟨x, hx, (derived_impls_agree Frontend.tokens).2 twiceTimecodeStruct [] [] [] _ _ _ _ rfl
      (tagsAs_timecode _) (tagsAs_timecode _) rfl x hx⟩

end Codegen

end Ebml
