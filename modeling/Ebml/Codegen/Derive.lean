import Ebml.Codegen.Item
import Ebml.Tokens.Lexer

/-!
# Deriving element records for structs

A struct with named fields becomes an element record: each field with an `#[ebml("…")]`
attribute is a child element, named by the attribute's text (or by the field's name in Pascal
case) and followed by the options `omitempty`, `size=N`, `size=unknown` or `inf`, and `stop`.
Problems with a field are reported in field order and the field left out; a raw identifier as a
name stops the whole derivation. Source text is read through a `Frontend`, the parser deriving
relies on, and the code is two impls: one lists the tagged fields and finds one by element, the
other makes the struct a master value that is zero when all its tagged fields are.
-/

namespace Ebml

namespace Codegen

open Tokens

/-- The size an element is written with. -/
inductive DeclaredSize where
  | default
  | exact (n : Nat)
  | unknown
  deriving DecidableEq, Inhabited

/-- A field's tag: the element it holds and how it is written and read. -/
structure TagAttribute where
  element : String
  size : DeclaredSize := .default
  omitEmpty : Bool := false
  stop : Bool := false
  deriving DecidableEq, Inhabited

/-- Why a tag is refused: a message for the field, or a raw identifier that cannot be made into
a variant's name. -/
inductive TagFault where
  | message (text : String)
  | invalidIdent (text : String)
  deriving DecidableEq, Inhabited

/-- A field's name in Pascal case: `track_number` becomes `TrackNumber`. -/
def pascalCase (field : String) : String :=
  let rec go : List Char → Bool → List Char
    | [], _ => []
    | c :: rest, upper =>
      if c = '_' then go rest true
      else if upper then Unicode.toUpper c ++ go rest false
      else c :: go rest false
  String.ofList (go field.toList true)

/-- The identifier that a name is, if it is exactly one identifier that may be a name. -/
def nameIdent (name : String) : Option (String × Bool) :=
  match lex name with
  | some [.ident n raw] => if acceptsAsName n raw then some (n, raw) else none
  | _ => none

/-- A decimal number that fits 64 bits, with an optional leading `+`. -/
def parseSize (s : String) : Option Nat :=
  let digits := match s.toList with
    | '+' :: rest => rest
    | cs => cs
  if digits.isEmpty || !digits.all Char.isDigit then none
  else
    let v := digits.foldl (fun acc c => acc * 10 + (c.toNat - '0'.toNat)) 0
    if v < Nat.pow 2 64 then some v else none

/-- Applies one option of a tag. -/
def TagAttribute.option (t : TagAttribute) (option : String) : Except TagFault TagAttribute :=
  if option = "" then .error (.message "Tag contains an empty option")
  else if option = "omitempty" then .ok { t with omitEmpty := true }
  else if option = "inf" ∨ option = "size=unknown" then .ok { t with size := .unknown }
  else if option = "stop" then .ok { t with stop := true }
  else if "size=".toList.isPrefixOf option.toList then
    match parseSize (String.ofList (option.toList.drop 5)) with
    | some n => .ok { t with size := .exact n }
    | none => .error (.message ("Invalid size in tag option `" ++ option ++ "`"))
  else .error (.message ("Unknown tag option `" ++ option ++ "`"))

/-- The text of an `ebml` attribute: one string literal in its parentheses. -/
def tagText (a : Syntax.Attr) : Except String String :=
  match a.args with
  | .none => .error "expected attribute arguments in parentheses: #[ebml(...)]"
  | .value => .error "expected parentheses: #[ebml(...)]"
  | .list _ ts =>
    match (do let s ← Parser.stringLit; Parser.finish .none; return s).parse ts with
    | .ok (s, _) => .ok s
    | .error e => .error e

/-- What deriving takes from the parser of source text: the item a text is, the text of an
attribute's one string literal, and the identifier a name is when it is exactly one identifier
that may be a name, with whether it is raw. -/
structure Frontend where
  parseItem : String → Except String Item
  tagText : Syntax.Attr → Except String String
  nameIdent : String → Option (String × Bool)

/-- The frontend that lexes source text into token trees and reads them by the grammar of
`Ebml.Syntax`. -/
def Frontend.tokens : Frontend := ⟨Codegen.parseItem, Codegen.tagText, Codegen.nameIdent⟩

/-- Reads a tag's text for the field of the given name. -/
def TagAttribute.parse (P : Frontend) (tag : String) (field : String) : Except TagFault TagAttribute :=
  let segments := tag.splitOn ","
  let first := segments.headD ""
  let name := if first.isEmpty then pascalCase field else first
  match P.nameIdent name with
  | none => .error (.message ("`" ++ name ++ "` is not a valid element name"))
  | some (n, true) => .error (.invalidIdent (TokenTree.identText n true))
  | some (n, false) => segments.tail.foldlM TagAttribute.option { element := n }

/-- A field that holds an element: its name and tag. -/
structure TaggedField where
  name : String × Bool
  tag : TagAttribute
  deriving Inhabited

/-- The fields read so far: the tagged ones, the elements they hold, and the errors found,
newest first. -/
structure FieldScan where
  tagged : List TaggedField := []
  seen : List String := []
  errors : List String := []
  deriving Inhabited

/-- Reads the tag of one field. -/
def FieldScan.add (P : Frontend) (scan : FieldScan) (f : Field) : Except String FieldScan :=
  let refuse (msg : String) : Except String FieldScan := .ok { scan with errors := msg :: scan.errors }
  match f.attrs.filter (fun (a : Syntax.Attr) => a.path.isIdent "ebml") with
  | [] => .ok scan
  | _ :: _ :: _ => refuse "A field can only have one `#[ebml]` attribute"
  | [a] =>
    match P.tagText a with
    | .error msg => refuse msg
    | .ok text =>
      match TagAttribute.parse P text f.name.1 with
      | .error (.invalidIdent n) => .error n
      | .error (.message msg) => refuse msg
      | .ok tag =>
        if scan.seen.contains tag.element then
          refuse ("Element `" ++ tag.element ++ "` is already assigned to another field")
        else .ok { scan with tagged := scan.tagged ++ [⟨f.name, tag⟩], seen := tag.element :: scan.seen }

/-- The expression that builds a field's tag. -/
def TagAttribute.trees (t : TagAttribute) : List TokenTree :=
  let base := template r##":: ebml_mux :: ebml :: Tag :: new (:: ebml_mux :: ebml :: ElementType :: $element)"##
    [("element", [.word t.element])]
  let size := match t.size with
    | .default => []
    | .exact n => template r##". size (:: ebml_mux :: ebml :: DeclaredSize :: Exact ($n))"##
      [("n", [u64Literal n])]
    | .unknown => template r##". size (:: ebml_mux :: ebml :: DeclaredSize :: Unknown)"## []
  let omitting := if t.omitEmpty then template r##". omit_empty ()"## [] else []
  let stop := if t.stop then template r##". stop ()"## [] else []
  base ++ size ++ omitting ++ stop

/-- The trees of a field's name. -/
def TaggedField.ident (f : TaggedField) : TokenTree := .ident f.name.1 f.name.2

/-- Adds a tagged field to the list of fields. -/
def TaggedField.push (f : TaggedField) : List TokenTree :=
  template r##"let field : & dyn :: ebml_mux :: ebml :: Field = & self . $field ;
    fields . push (($tag , field)) ;"##
    [("field", [f.ident]), ("tag", f.tag.trees)]

/-- Finds a tagged field by its element. -/
def TaggedField.arm (f : TaggedField) : List TokenTree :=
  template r##":: ebml_mux :: ebml :: ElementType :: $element => ⟪
      let field : & mut dyn :: ebml_mux :: ebml :: Field = & mut self . $field ;
      :: std :: option :: Option :: Some (($tag , field)) ⟫ ,"##
    [("element", [.word f.tag.element]), ("field", [f.ident]), ("tag", f.tag.trees)]

/-- Requires a tagged field to be zero. -/
def TaggedField.zeroCheck (f : TaggedField) : List TokenTree :=
  template r##"&& :: ebml_mux :: ebml :: Field :: is_zero (& self . $field)"## [("field", [f.ident])]

/-- The impls for a struct with the given name, generics and tagged fields. -/
def deriveCode (name : String × Bool) (g : Generics) (fields : List TaggedField) : List TokenTree :=
  template r##"
    impl $implGenerics :: ebml_mux :: ebml :: Tagged for $name $typeGenerics $whereClause ⟪
      fn tagged_fields (& self) -> :: std :: vec :: Vec < $entry > ⟪
        let mut fields : :: std :: vec :: Vec < $entry > = :: std :: vec :: Vec :: with_capacity ($count) ;
        $pushes
        fields
      ⟫
      fn tagged_field_mut (& mut self , element : :: ebml_mux :: ebml :: ElementType ,)
          -> :: std :: option :: Option < (:: ebml_mux :: ebml :: Tag , & mut dyn :: ebml_mux :: ebml :: Field) > ⟪
        match element ⟪ $arms _ => :: std :: option :: Option :: None , ⟫
      ⟫
    ⟫
    impl $implGenerics :: ebml_mux :: ebml :: Field for $name $typeGenerics $whereClause ⟪
      fn value (& self) -> :: ebml_mux :: ebml :: ValueRef < '_ > ⟪
        :: ebml_mux :: ebml :: ValueRef :: Master (self)
      ⟫
      fn is_zero (& self) -> bool ⟪ true $zeroChecks ⟫
      fn master_mut (& mut self) -> :: std :: option :: Option < & mut dyn :: ebml_mux :: ebml :: Tagged > ⟪
        :: std :: option :: Option :: Some (self)
      ⟫
    ⟫"##
    [("implGenerics", g.implTrees), ("name", [.ident name.1 name.2]), ("typeGenerics", g.typeTrees),
     ("whereClause", g.whereTrees),
     ("entry", template r##"(:: ebml_mux :: ebml :: Tag , & dyn :: ebml_mux :: ebml :: Field)"## []),
     ("count", [usizeLiteral fields.length]), ("pushes", fields.flatMap TaggedField.push),
     ("arms", fields.flatMap TaggedField.arm), ("zeroChecks", fields.flatMap TaggedField.zeroCheck)]

/-- What deriving gives: the errors to report, in order, and the generated code (empty when the
item is not a struct with named fields). -/
structure Expansion where
  errors : List String
  code : String
  deriving Inhabited

/-- Why deriving stops without an expansion: the item does not parse, or a name cannot be made
into an identifier. -/
inductive DeriveFailure where
  | malformed (message : String)
  | invalidIdent (name : String)
  deriving Inhabited

/-- The message of a failure; for an identifier that cannot be made it names the text shown for
debugging. -/
def DeriveFailure.message : DeriveFailure → String
  | .malformed m => m
  | .invalidIdent name => debugString name ++ " is not a valid Ident"

/-- Derives the element record impls for an item. -/
def deriveItem (P : Frontend) (it : Item) : Except DeriveFailure Expansion :=
  match it.body with
  | .named fields =>
    match fields.foldlM (FieldScan.add P) {} with
    | .error n => .error (.invalidIdent n)
    | .ok scan =>
      .ok ⟨scan.errors.reverse, TokenTree.printAll (deriveCode it.name it.generics scan.tagged)⟩
  | _ => .ok ⟨["`Ebml` can only be derived for structs with named fields"], ""⟩

/-- Derives the element record impls for an item given as source text. -/
def deriveWith (P : Frontend) (source : String) : Except DeriveFailure Expansion :=
  match P.parseItem source with
  | .error m => .error (.malformed m)
  | .ok it => deriveItem P it

/-- Derives the element record impls for source text read into token trees. -/
def derive (source : String) : Except DeriveFailure Expansion := deriveWith Frontend.tokens source

end Codegen

end Ebml
