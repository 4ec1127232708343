import SecPlatform.Compiler.Templates.PrismaSchema

/-!
# What the lines of a body declare

A line declares an attribute of the block or a member. A template adds to a body the lines that declare something
which neither the body nor an earlier line of the template declares.
-/

namespace SecPlatform.Compiler.Templates

open Contracts

inductive Declaration where
  | attribute (text : Text)
  | member (name : Text)
  deriving DecidableEq

/-- Blank lines and comments declare nothing. -/
def IsSilent (line : Text) : Prop := line.trim = [] ∨ isComment line.trim

instance (line : Text) : Decidable (IsSilent line) := inferInstanceAs (Decidable (_ ∨ _))

def declaration (enumeration : Bool) (line : Text) : Option Declaration :=
  if IsSilent line then none
  else if isAttribute enumeration line.trim then some (.attribute line.trim)
  else (memberName enumeration line.trim).map .member

/-- The lines within the grammar of members. -/
def IsSupported (enumeration : Bool) (line : Text) : Prop := IsSilent line ∨ (declaration enumeration line).isSome

/-- Lines of one name have one text. -/
def Agree (enumeration : Bool) (lines : List Text) : Prop :=
  ∀ line ∈ lines, ∀ other ∈ lines, ∀ name, declaration enumeration line = some (.member name) →
    declaration enumeration other = some (.member name) → line.trim = other.trim

/-- The lines of a template that declare something new, each behind the comments right before it. -/
def newLines (enumeration : Bool) (known comments : List Text) : List Text → List Text
  | [] => []
  | line :: lines =>
      if line.trim = [] then newLines enumeration (known ++ [line]) comments lines
      else if isComment line.trim then newLines enumeration (known ++ [line]) (comments ++ [line]) lines
      else if ∃ other ∈ known, declaration enumeration other = declaration enumeration line then
        newLines enumeration (known ++ [line]) [] lines
      else comments ++ line :: newLines enumeration (known ++ [line]) [] lines

/-- The lines of a body and those of a template go together. -/
structure Mergeable (enumeration : Bool) (existing template : List Text) : Prop where
  existing_supported : enumeration → ∀ line ∈ existing, IsSupported enumeration line
  template_supported : ∀ line ∈ template, IsSupported enumeration line
  agree : Agree enumeration (existing ++ template)

/-! ## Braces -/

/-- The scan at some depth, outside of strings. -/
def LineScan.plain (d : Nat) (opening : Option Nat) : LineScan := ⟨d, false, false, opening, none⟩

/-- The scan of the lines stays inside the block, from one depth to another. -/
inductive Nested : Nat → List Text → Nat → Prop
  | nil (d : Nat) : Nested d [] d
  | cons {d d' d'' : Nat} {line : Text} {lines : List Text} (hscan : scanPrismaLine line d = .ok (.plain d' none))
      (hpos : 0 < d') (hlines : Nested d' lines d'') : Nested d (line :: lines) d''

/-! ## Documents -/

/-- Whether the blocks of a type are enumerations, for the types whose members are merged. -/
def memberGrammar (type : Text) : Option Bool :=
  if type = Text.ofString "model" ∨ type = Text.ofString "type" then some false
  else if type = Text.ofString "enum" then some true
  else none

/-- The blocks of a template that have no counterpart. -/
def newBlocks (existing template : List PrismaBlock) : List PrismaBlock :=
  template.filter fun block => block.key ∉ existing.map PrismaBlock.key

/-- The lines that a template adds to a block. -/
def linesAdded (template : List PrismaBlock) (block : PrismaBlock) : List Text :=
  match template.find? (·.key = block.key) with
  | none => []
  | some templateBlock =>
      match memberGrammar templateBlock.type, bodyLines block.content, bodyLines templateBlock.content with
      | some enumeration, .ok lines, .ok lines' => newLines enumeration lines [] lines'
      | _, _, _ => []

/-- The lines that a template adds to a block stay inside the block. -/
def AddedLinesNested (existingContent templateContent : Text) : Prop :=
  ∀ existing template, parsePrismaDocument existingContent = .ok existing →
    parsePrismaDocument templateContent = .ok template → ∀ block ∈ existing.blocks,
      Nested 1 (linesAdded template.blocks block) 1

/-- The members of a block that only the template has are within the grammar, with one text for each name. -/
def AddedBlocksAgree (existingContent templateContent : Text) : Prop :=
  ∀ existing template, parsePrismaDocument existingContent = .ok existing →
    parsePrismaDocument templateContent = .ok template → ∀ block ∈ newBlocks existing.blocks template.blocks,
      ∀ enumeration lines, memberGrammar block.type = some enumeration → bodyLines block.content = .ok lines →
        (∀ line ∈ lines, IsSupported enumeration line) ∧ Agree enumeration lines

/-- A block of a schema into which a template has been merged: the lines that the template adds stand behind the ones
of the body, and everything else is as it was but for the white space around the block. -/
structure Keeps (template : List PrismaBlock) (block kept : PrismaBlock) : Prop where
  type_eq : kept.type = block.type
  name_eq : kept.name = block.name
  unchanged : linesAdded template block = [] → kept.content.trim = block.content.trim
  extended : linesAdded template block ≠ [] → ∃ header body closing lines, block.content = header ++ (body ++ closing) ∧
    lines = [] :: (withoutEmptyEdges (Text.splitAt lineFeed body) ++ linesAdded template block) ++ [[]] ∧
      kept.content.trim = (header ++ (Text.joinWith [lineFeed] lines ++ closing)).trim ∧
        bodyLines block.content = .ok (Text.splitAt lineFeed body) ∧ bodyLines kept.content = .ok lines

/-- A block that has been copied, but for the white space around it. -/
structure Copies (block copy : PrismaBlock) : Prop where
  type_eq : copy.type = block.type
  name_eq : copy.name = block.name
  content_eq : copy.content.trim = block.content.trim

/-- Why two blocks of one key cannot be merged. -/
inductive Conflicts (block templateBlock : PrismaBlock) : Prop
  | settings (hgrammar : memberGrammar templateBlock.type = none)
      (hne : normalizedBlock block.content ≠ normalizedBlock templateBlock.content)
  | members {enumeration : Bool} {lines lines' : List Text} {line other name : Text}
      (hgrammar : memberGrammar templateBlock.type = some enumeration) (hlines : bodyLines block.content = .ok lines)
      (hlines' : bodyLines templateBlock.content = .ok lines') (hline : line ∈ lines ++ lines')
      (hother : other ∈ lines ++ lines') (hmember : declaration enumeration line = some (.member name))
      (hmember' : declaration enumeration other = some (.member name)) (hne : line.trim ≠ other.trim)
  | unsupported {enumeration : Bool} {lines lines' : List Text} {line : Text}
      (hgrammar : memberGrammar templateBlock.type = some enumeration) (hlines : bodyLines block.content = .ok lines)
      (hlines' : bodyLines templateBlock.content = .ok lines') (hline : line ∈ lines ++ lines')
      (hnot : ¬IsSupported enumeration line)

end SecPlatform.Compiler.Templates
