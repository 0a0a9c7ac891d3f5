import Ebml.Tokens.Parse
import Ebml.Trie

/-!
# Element tables

An element table declares a schema, one entry per element, as `Name: { 0x1A45_DFA3, Master }`
with an optional `top` for a top-level element. Every identifier must keep a length marker that
matches its width of at most four octets, and names and identifiers must be unique; the first
entry that fails gives the table's error. The expansion is the element enum with one variant per
entry and its lookups, and the entries are read through a reader given as a parameter.
-/

namespace Ebml

namespace Codegen

open Tokens Parser

/-- One entry of an element table. -/
structure ElementDefinition where
  name : String × Bool
  id : Nat
  dataType : String
  topLevel : Bool
  deriving Inhabited

/-- The data types an entry may name. -/
def dataTypeNames : List String :=
  ["SignedInt", "UnsignedInt", "Float", "String", "Utf8", "Date", "Master", "Binary", "Block"]

/-- Reads the inside of an entry's braces: identifier, data type and flag. -/
def entryInfo : Parser (Nat × String × Bool) := do
  let (negative, v) ← integerLit
  let id ← match toUnsigned64 negative v with
    | .ok n => pure n
    | .error m => throw m
  operator ","
  let (dataType, raw) ← name
  if raw || !dataTypeNames.contains dataType then
    throw ("Unknown data type, expected one of: " ++ ", ".intercalate dataTypeNames)
  if (← optionalOperator ",") && !(← atEnd) then
    let flag ← name
    if flag != ("top", false) then throw "Expected `top`"
    let _ ← optionalOperator ","
    return (id, dataType, true)
  return (id, dataType, false)

/-- Reads an entry; also says whether trees were left over inside its braces. -/
def entry : Parser (ElementDefinition × Bool) := do
  let n ← name
  operator ":"
  let info ← group .brace
  match entryInfo.parse info with
  | .error m => throw m
  | .ok ((id, dataType, top), rest) => return (⟨n, id, dataType, top⟩, !rest.isEmpty)

/-- Reads entries separated by commas, noting whether any left trees over. -/
def entries : Nat → Bool → Parser (List ElementDefinition × Bool)
  | 0, leftover => pure ([], leftover)
  | fuel + 1, leftover => do
    if ← atEnd then return ([], leftover)
    let (e, left) ← entry
    let leftover := leftover || left
    if ← atEnd then return ([e], leftover)
    operator ","
    let (es, leftover) ← entries fuel leftover
    return (e :: es, leftover)

/-- The number of octets of an identifier. -/
def idOctets (id : Nat) : Nat := Nat.log2 id / 8 + 1

/-- Checks an identifier's length marker. -/
def checkId (id : Nat) : Except String Unit :=
  if id = 0 then .error "Element IDs cannot be 0"
  else
    let octets := idOctets id
    if octets > 4 then .error "Element IDs cannot be longer than 4 octets"
    else
      let first := id / Nat.pow 2 ((octets - 1) * 8)
      if 8 - Nat.log2 first ≠ octets then .error "The length marker of this ID does not match its width"
      else .ok ()

/-- The text of an entry's name. -/
def ElementDefinition.text (e : ElementDefinition) : String := TokenTree.identText e.name.1 e.name.2

/-- Checks the entries in order: identifiers, then unique names and identifiers. -/
def checkEntries : List ElementDefinition → List String → List (Nat × String) → Except String Unit
  | [], _, _ => .ok ()
  | e :: rest, names, ids => do
    checkId e.id
    if names.contains e.text then throw "Element defined more than once"
    match ids.lookup e.id with
    | some other => throw ("ID is already used by `" ++ other ++ "`")
    | none => checkEntries rest (e.text :: names) ((e.id, e.text) :: ids)

/-- Reads the entries of a table from its trees, noting whether any left trees over. -/
def readEntries (ts : List TokenTree) : Except String (List ElementDefinition × Bool) :=
  ((entries (ts.length + 1) false).parse ts).map (·.1)

/-- Checks the entries that `read` finds in a table's trees. -/
def parseTableWith (read : List TokenTree → Except String (List ElementDefinition × Bool))
    (ts : List TokenTree) : Except String (List ElementDefinition) := do
  let (es, leftover) ← read ts
  if leftover then throw (leftoverMessage .brace)
  checkEntries es [] []
  return es

/-- Reads an element table from its trees and checks it. -/
def parseTable (ts : List TokenTree) : Except String (List ElementDefinition) :=
  parseTableWith readEntries ts

/-- An identifier in uppercase hexadecimal with a `0x` prefix. -/
def hexId (n : Nat) : String := "0x" ++ String.ofList ((Nat.toDigits 16 n).map Char.toUpper)

/-- The trees of an entry's variant. -/
def ElementDefinition.ident (e : ElementDefinition) : TokenTree := .ident e.name.1 e.name.2

/-- The variant of an entry, with its doc line. -/
def ElementDefinition.variant (e : ElementDefinition) : List TokenTree :=
  template r##"# [doc = $doc] $variant ,"##
    [("doc", [stringTree ("`" ++ e.text ++ "` (ID `" ++ hexId e.id ++ "`)")]), ("variant", [e.ident])]

/-- A match arm from an entry's variant to a value. -/
def ElementDefinition.arm (e : ElementDefinition) (value : List TokenTree) : List TokenTree :=
  template r##"ElementType :: $variant => $value ,"## [("variant", [e.ident]), ("value", value)]

/-- The path of an entry's variant. -/
def ElementDefinition.path (e : ElementDefinition) : List TokenTree :=
  template r##"ElementType :: $variant"## [("variant", [e.ident])]

/-- The element enum and its lookups for checked entries. -/
def tableCode (es : List ElementDefinition) : List TokenTree :=
  let all := ((es.map ElementDefinition.path).intersperse [.punct ',' .alone]).flatten
  template r##"
    # [doc = r" An element known to the schema"]
    # [doc = r""]
    # [doc = r" A variant's name is also the element's name in tags, see [`ElementType::from_name`]."]
    # [derive (Copy , Clone , Debug , Eq , PartialEq , Ord , PartialOrd , Hash)]
    # [non_exhaustive]
    pub enum ElementType ⟪ $variants ⟫
    impl ElementType ⟪
      # [doc = r" Every element in the schema, in declaration order"]
      pub const ALL : & 'static [ElementType] = & [$all] ;
      # [doc = r" The element's ID, including its length marker"]
      pub const fn id (self) -> crate :: ebml :: ElementId ⟪ match self ⟪ $ids ⟫ ⟫
      # [doc = r" The element's name"]
      pub const fn name (self) -> & 'static str ⟪ match self ⟪ $names ⟫ ⟫
      # [doc = r" The type of data the element holds"]
      pub const fn data_type (self) -> crate :: ebml :: ElementDataType ⟪ match self ⟪ $types ⟫ ⟫
      # [doc = r" Whether the element is a top-level (level 1) element"]
      # [doc = r""]
      # [doc = r" A top-level element ends any unknown-size top-level element it is found in."]
      pub const fn is_top_level (self) -> bool ⟪ match self ⟪ $tops ⟫ ⟫
      # [doc = r" Look up an element by its name"]
      pub fn from_name (name : & str) -> Option < Self > ⟪ match name ⟪ $lookups _ => None , ⟫ ⟫
    ⟫"##
    [("variants", es.flatMap ElementDefinition.variant), ("all", all),
     ("ids", es.flatMap fun e =>
        e.arm (template r##"crate :: ebml :: ElementId ($id)"## [("id", [u64Literal e.id])])),
     ("names", es.flatMap fun e => e.arm [stringTree e.text]),
     ("types", es.flatMap fun e =>
        e.arm (template r##"crate :: ebml :: ElementDataType :: $type"## [("type", [.word e.dataType])])),
     ("tops", es.flatMap fun e => e.arm [boolTree e.topLevel]),
     ("lookups", es.flatMap fun e =>
        template r##"$name => Some ($path) ,"## [("name", [stringTree e.text]), ("path", e.path)])]

/-- Expands an element table given as source text: the code, or the table's error. Text that
does not lex gives nothing. -/
def expandTable (source : String) : Option (Except String String) :=
  (lex source).map fun ts => (parseTable ts).map fun es => TokenTree.printAll (tableCode es)

end Codegen

/-! ## The generated element type

For a checked table the expansion declares an element enum with one variant per entry, in table
order, and its lookups. A variant here is the position of its entry: `ALL` lists the positions in
order, `id` and `name` read the entry back, and `from_name` tries the entries' names in the order
the generated `match` lists them, the first match winning.

The library resolves identifiers through a trie built over `ALL`, each variant inserted under the
octets of its identifier: as many as the identifier spans, most significant first. -/

namespace Codegen

/-- A variant of the element enum generated for a table: the position of its entry. -/
abbrev ElementVariant (es : List ElementDefinition) : Type := Fin es.length

variable (es : List ElementDefinition)

/-- Every variant, in declaration order. -/
def allVariants : List (ElementVariant es) := List.finRange es.length

/-- A variant's identifier, length marker included. -/
def variantId (v : ElementVariant es) : Nat := es[v].id

/-- A variant's name. -/
def variantName (v : ElementVariant es) : String := es[v].text

/-- The arms of the name lookup, in the order the expansion writes them. -/
def nameArms : List (String × ElementVariant es) := (allVariants es).map fun v => (variantName es v, v)

/-- The variant of a name: the first arm whose name matches. -/
def variantOfName (x : String) : Option (ElementVariant es) :=
  ((nameArms es).find? fun arm => arm.1 == x).map Prod.snd

/-- The octets a variant is filed under in the trie. -/
def variantOctets (v : ElementVariant es) : Bytes :=
  Octets.ofNat (Element.idWidth (variantId es v)) (variantId es v)

/-- The trie built over every variant in declaration order. -/
def variantTrie : Trie (ElementVariant es) :=
  Trie.build ((allVariants es).map fun v => (variantOctets es v, v))

end Codegen

end Ebml
