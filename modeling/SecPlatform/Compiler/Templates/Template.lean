import SecPlatform.Compiler.Templates.RenderTemplateString

/-!
# What a template means

A template is text with nested branches. Its meaning is compositional: what a branch shows does not depend on
what stands around it, and a value that is substituted is not looked at again.
-/

namespace SecPlatform.Compiler.Templates

open Contracts

/-! ## Templates -/

/-- A template up to its first branch, the branch, and the template behind the branch. -/
inductive Template where
  | plain (text : Text)
  | branch (before condition : Text) (body after : Template)

namespace Template

def source : Template → Text
  | .plain text => text
  | .branch before condition body after =>
      before ++ (TEMPLATE_IF_PREFIX ++ (condition ++ (TEMPLATE_IF_END ++ (body.source ++ (TEMPLATE_ENDIF ++ after.source)))))

/-- No text of the template looks like a directive, and no condition like its end. -/
def WellFormed : Template → Prop
  | .plain text => ¬TEMPLATE_MARKER <:+: text
  | .branch before condition body after =>
      ¬TEMPLATE_MARKER <:+: before ∧ ¬TEMPLATE_IF_END <:+: condition ∧ body.WellFormed ∧ after.WellFormed

def directives : Template → Nat
  | .plain _ => 0
  | .branch _ _ body after => 2 + body.directives + after.directives

def depth : Template → Nat
  | .plain _ => 0
  | .branch _ _ body after => max (1 + body.depth) after.depth

end Template

/-- The condition is a key of a boolean, or such a key behind a `!`. -/
inductive Selects (context : TemplateContext) : Text → Bool → Prop
  | key {key value} (hkey : isTemplateContextKey key) (hvalue : context.get? key = some (.boolean value)) :
      Selects context key value
  | negated {key value} (hkey : isTemplateContextKey key) (hvalue : context.get? key = some (.boolean value)) :
      Selects context (unit '!' :: key) !value

/-- What a template shows, where each of its conditions has a value. -/
inductive Template.Shows (context : TemplateContext) : Template → Text → Prop
  | plain (text) : Shows context (.plain text) text
  | branch {before condition body after selected shown rest} (hcondition : Selects context condition.trim selected)
      (hbody : Shows context body shown) (hafter : Shows context after rest) :
      Shows context (.branch before condition body after) (before ++ ((if selected then shown else []) ++ rest))

/-! ## Placeholders -/

/-- A placeholder of the key at the start of a text. -/
def PlaceholderAt (s key behind : Text) : Prop :=
  s = PLACEHOLDER_MARK ++ (key ++ (PLACEHOLDER_MARK ++ behind)) ∧ isTemplateContextKey key

/-- The placeholder with the longest key. -/
structure LongestAt (s key behind : Text) : Prop where
  found : PlaceholderAt s key behind
  longest : ∀ key' behind', PlaceholderAt s key' behind' → key'.length ≤ key.length

/-- No placeholder begins at the first places of a text. -/
def FreeUpTo (n : Nat) (s : Text) : Prop := ∀ i < n, ∀ key behind, ¬PlaceholderAt (s.drop i) key behind

/-- Every placeholder replaced by the text of its value, from left to right; the values are not looked at again. -/
inductive Interpolates (context : TemplateContext) : Text → Text → Prop
  | plain {s} (h : FreeUpTo s.length s) : Interpolates context s s
  | placeholder {before s key behind value text out} (hfree : FreeUpTo before.length (before ++ s))
      (hkey : LongestAt s key behind) (hvalue : context.get? key = some value) (htext : value.text? = some text)
      (hrest : Interpolates context behind out) : Interpolates context (before ++ s) (before ++ (text ++ out))

/-- What a text means as a template, within the limits. -/
def Denotes (context : TemplateContext) (content out : Text) : Prop :=
  ∃ (t : Template) (shown : Text), t.source = content ∧ t.WellFormed ∧ t.directives ≤ TEMPLATE_MAX_DIRECTIVES ∧
    t.depth ≤ TEMPLATE_MAX_NESTING_DEPTH ∧ t.Shows context shown ∧ Interpolates context shown out ∧
    out.utf8Length ≤ TEMPLATE_MAX_OUTPUT_BYTES

/-! ## Contexts -/

/-- The value of a member that may stand in a context. -/
inductive ContextMember.Is : ContextMember → TemplateContextValue → Prop
  | string (value) : Is (.string value) (.string value)
  | number (value : { n : JsNumber // n.isFinite }) : Is (.number value.val) (.number value)
  | boolean (value) : Is (.boolean value) (.boolean value)

/-- A record of such values under canonical keys. -/
def Canonical (members : List (Text × ContextMember)) (context : TemplateContext) : Prop :=
  List.Forall₂ (fun member entry => entry.1 = member.1 ∧ isTemplateContextKey member.1 ∧ member.2.Is entry.2) members context

end SecPlatform.Compiler.Templates
