import SecPlatform.Contracts.Canonical
import SecPlatform.Library.Except
import SecPlatform.Library.Occurrence

/-!
# Rendering a template

Conditional directives choose what is left of the template, then the placeholders of what is left are replaced by
values of the context. Both are scans from left to right; the limits are checked on the way.
-/

namespace SecPlatform.Compiler.Templates

open Contracts

def TEMPLATE_MARKER : Text := "/*#"

def TEMPLATE_IF_PREFIX : Text := "/*#IF "

def TEMPLATE_IF_END : Text := "*/"

def TEMPLATE_ENDIF : Text := "/*#ENDIF*/"

def TEMPLATE_MAX_INPUT_BYTES : Nat := 1024 * 1024

def TEMPLATE_MAX_OUTPUT_BYTES : Nat := 4 * 1024 * 1024

def TEMPLATE_MAX_DIRECTIVES : Nat := 4096

def TEMPLATE_MAX_NESTING_DEPTH : Nat := 64

/-! ## The context -/

/-- `[A-Za-z_]` -/
def isKeyStart (c : CodeUnit) : Bool :=
  (unit 'A' ≤ c && c ≤ unit 'Z') || (unit 'a' ≤ c && c ≤ unit 'z') || c == unit '_'

/-- `[A-Za-z0-9_]` -/
def isKeyUnit (c : CodeUnit) : Bool := isKeyStart c || (unit '0' ≤ c && c ≤ unit '9')

/-- `/^[A-Za-z_][A-Za-z0-9_]*$/u` -/
def isTemplateContextKey : Text → Bool
  | [] => false
  | c :: rest => isKeyStart c && rest.all isKeyUnit

/-- A member of the context as the caller gives it; nothing else is known of a value of another type than its `typeof`. -/
inductive ContextMember where
  | accessor
  | string (value : Text)
  | number (value : JsNumber)
  | boolean (value : Bool)
  | null
  | other (valueType : Text)

inductive TemplateContextValue where
  | string (value : Text)
  | number (value : { n : JsNumber // n.isFinite })
  | boolean (value : Bool)

/-- `typeof value`. -/
def TemplateContextValue.valueType : TemplateContextValue → Text
  | .string _ => "string"
  | .number _ => "number"
  | .boolean _ => "boolean"

abbrev TemplateContext : Type := List (Text × TemplateContextValue)

/-- `Object.hasOwn(context, key) ? context[key] : undefined`. -/
def TemplateContext.get? (context : TemplateContext) (key : Text) : Option TemplateContextValue := context.lookup key

def assertInputBound (content : Text) : Except CodedFailure Unit :=
  require (content.utf8Length ≤ TEMPLATE_MAX_INPUT_BYTES) ⟨"COMPOSE-TEMPLATE-006",
    "Template input exceeds the canonical byte limit", some (.obj [
      ("inputBytes", .num (.ofNat content.utf8Length)), ("maximumBytes", .num (.ofNat TEMPLATE_MAX_INPUT_BYTES))])⟩

def unsupportedValue {α : Type} (key valueType : Text) : Except CodedFailure α :=
  failWith "COMPOSE-TEMPLATE-007" (Text.cat ["Template context value is unsupported: ", key])
    [("key", .str key), ("valueType", .str valueType)]

def normalizeValue (key : Text) : ContextMember → Except CodedFailure TemplateContextValue
  | .accessor => failWith "COMPOSE-TEMPLATE-007" (Text.cat ["Template context must not contain accessors: ", key])
      [("key", .str key)]
  | .string value => .ok (.string value)
  | .boolean value => .ok (.boolean value)
  | .number value => if h : value.isFinite then .ok (.number ⟨value, h⟩) else unsupportedValue key "number"
  | .null => unsupportedValue key "null"
  | .other valueType => unsupportedValue key valueType

def normalizeMember (member : Text × ContextMember) : Except CodedFailure (Text × TemplateContextValue) := do
  require (isTemplateContextKey member.1) ⟨"COMPOSE-TEMPLATE-007",
    Text.cat ["Template context key is not canonical: ", member.1], some (.obj [("key", .str member.1)])⟩
  let value ← normalizeValue member.1 member.2
  return (member.1, value)

/-- The own enumerable members of a record; anything that is not a record stands as nothing. -/
def normalizeContext (context : Option (List (Text × ContextMember))) : Except CodedFailure TemplateContext :=
  match context with
  | none => failWith "COMPOSE-TEMPLATE-007" "Template context must be a record of data values" []
  | some members => members.mapM normalizeMember

/-! ## Conditions -/

/-- `(!)?` and the rest of a condition. -/
def splitCondition : Text → Bool × Text
  | [] => (false, [])
  | c :: rest => if c = unit '!' then (true, rest) else (false, c :: rest)

def conditionOperand (key : Text) (context : TemplateContext) : Except CodedFailure Bool :=
  match context.get? key with
  | none => failWith "COMPOSE-TEMPLATE-007" (Text.cat ["Template condition references an unknown context key: ", key])
      [("key", .str key)]
  | some (.boolean value) => .ok value
  | some value =>
      failWith "COMPOSE-TEMPLATE-007" (Text.cat ["Template condition requires a boolean context value: ", key])
        [("key", .str key), ("valueType", .str value.valueType)]

def conditionValue (condition : Text) (context : TemplateContext) : Except CodedFailure Bool := do
  let (negated, key) := splitCondition condition
  require (isTemplateContextKey key) ⟨"COMPOSE-TEMPLATE-007",
    Text.cat ["Template condition is not canonical: ", condition], some (.obj [("condition", .str condition)])⟩
  let value ← conditionOperand key context
  return if negated then !value else value

structure ConditionalScan where
  /-- The innermost branch first. -/
  parentActivity : List Bool
  active : Bool
  directiveCount : Nat
  output : Text

/-- Text that is kept in an active branch only. -/
def ConditionalScan.emit (state : ConditionalScan) (text : Text) : ConditionalScan :=
  if state.active then { state with output := state.output ++ text } else state

/-- The directive at the marker, and how much of the text it takes. -/
def renderDirective (context : TemplateContext) (marker : Nat) (state : ConditionalScan) (directive : Text) :
    Except CodedFailure (ConditionalScan × { width : Nat // 0 < width }) := do
  let directiveCount := state.directiveCount + 1
  require (directiveCount ≤ TEMPLATE_MAX_DIRECTIVES) ⟨"COMPOSE-TEMPLATE-008",
    "Template contains too many conditional directives", some (.obj [
      ("directiveCount", .num (.ofNat directiveCount)), ("maximumDirectives", .num (.ofNat TEMPLATE_MAX_DIRECTIVES))])⟩
  if TEMPLATE_ENDIF <+: directive then
    match state.parentActivity with
    | [] => failWith "COMPOSE-TEMPLATE-004" "Malformed template: unmatched /*#ENDIF*/" []
    | parent :: parents => .ok (⟨parents, parent, directiveCount, state.output⟩, ⟨TEMPLATE_ENDIF.length, by decide⟩)
  else if ¬TEMPLATE_IF_PREFIX <+: directive then
    failWith "COMPOSE-TEMPLATE-002" "Malformed template: unsupported conditional directive" [("offset", .num (.ofNat marker))]
  else
    match Text.cut TEMPLATE_IF_END (directive.drop TEMPLATE_IF_PREFIX.length) with
    | none => failWith "COMPOSE-TEMPLATE-002" "Malformed template: missing */ for /*#IF" []
    | some (condition, _) => do
        let selected ← conditionValue condition.trim context
        let parentActivity := state.active :: state.parentActivity
        require (parentActivity.length ≤ TEMPLATE_MAX_NESTING_DEPTH) ⟨"COMPOSE-TEMPLATE-008",
          "Template conditional nesting exceeds the canonical limit", some (.obj [
            ("maximumDepth", .num (.ofNat TEMPLATE_MAX_NESTING_DEPTH))])⟩
        return (⟨parentActivity, state.active && selected, directiveCount, state.output⟩,
          ⟨TEMPLATE_IF_PREFIX.length + condition.length + TEMPLATE_IF_END.length, Nat.add_pos_right _ (by decide)⟩)

def finishConditionals (state : ConditionalScan) : Except CodedFailure Text := do
  require (state.parentActivity = []) ⟨"COMPOSE-TEMPLATE-003", "Malformed template: missing /*#ENDIF*/", some (.obj [])⟩
  return state.output

/-- The loop from the cursor on. -/
def renderConditionalsFrom (context : TemplateContext) (cursor : Nat) (content : Text) (state : ConditionalScan) :
    Except CodedFailure Text :=
  match content with
  | [] => finishConditionals state
  | c :: rest =>
      match Text.cut TEMPLATE_MARKER (c :: rest) with
      | none => finishConditionals (state.emit (c :: rest))
      | some (before, _) => do
          let (next, width) ← renderDirective context (cursor + before.length) (state.emit before)
            ((c :: rest).drop before.length)
          renderConditionalsFrom context (cursor + before.length + width.val)
            ((c :: rest).drop (before.length + width.val)) next
termination_by content.length
decreasing_by
  have := width.2
  rw [List.length_drop, List.length_cons]
  omega

def renderConditionals (content : Text) (context : TemplateContext) : Except CodedFailure Text :=
  renderConditionalsFrom context 0 content ⟨[], true, 0, []⟩

/-! ## Placeholders -/

def PLACEHOLDER_MARK : Text := "__"

/-- The longest key of at most this length that the closing mark follows. -/
def closedKey (body : Text) : Nat → Option Nat
  | 0 => none
  | n + 1 => if PLACEHOLDER_MARK <+: body.drop (n + 1) then some (n + 1) else closedKey body n

/-- `/__([A-Za-z_][A-Za-z0-9_]*)__/` at the start of a text: the key and the text behind the match. -/
def matchPlaceholder (s : Text) : Option (Text × Text) :=
  if PLACEHOLDER_MARK <+: s then
    let body := s.drop PLACEHOLDER_MARK.length
    if body.head?.any isKeyStart then
      (closedKey body (body.takeWhile isKeyUnit).length).map fun n =>
        (body.take n, body.drop (n + PLACEHOLDER_MARK.length))
    else none
  else none

/-- The first match: the text before it, its key and the text behind it. -/
def nextPlaceholder : Text → Option (Text × Text × Text)
  | [] => none
  | c :: rest =>
      match matchPlaceholder (c :: rest) with
      | some (key, behind) => some ([], key, behind)
      | none => (nextPlaceholder rest).map fun found => (c :: found.1, found.2)

theorem length_matchPlaceholder {s key behind : Text} (h : matchPlaceholder s = some (key, behind)) :
    behind.length < s.length := by
  unfold matchPlaceholder at h
  split at h
  · rename_i hmark
    have hlength := hmark.length_le
    dsimp only at h
    split at h
    · obtain ⟨n, -, hfound⟩ := Option.map_eq_some_iff.mp h
      cases hfound
      have hpos : 0 < PLACEHOLDER_MARK.length := by decide
      simp only [List.length_drop]
      omega
    · cases h
  · cases h

theorem length_nextPlaceholder {s before key behind : Text} (h : nextPlaceholder s = some (before, key, behind)) :
    behind.length < s.length := by
  induction s generalizing before with
  | nil => cases h
  | cons c rest ih =>
      unfold nextPlaceholder at h
      split at h
      · rename_i hmatch
        cases h
        exact length_matchPlaceholder hmatch
      · obtain ⟨⟨b, k, r⟩, hnext, hfound⟩ := Option.map_eq_some_iff.mp h
        cases hfound
        exact (ih hnext).trans (Nat.lt_succ_self _)

structure Rendering where
  parts : List Text
  outputBytes : Nat
  trailingHighSurrogate : Bool

def Rendering.append (state : Rendering) (part : Text) : Except CodedFailure Rendering :=
  if part = [] then .ok state
  else do
    let joined := state.trailingHighSurrogate && part.head?.any Text.isTrailSurrogate
    let outputBytes := state.outputBytes + (part.utf8Length - if joined then 2 else 0)
    require (outputBytes ≤ TEMPLATE_MAX_OUTPUT_BYTES) ⟨"COMPOSE-TEMPLATE-009",
      "Rendered template exceeds the canonical byte limit", some (.obj [
        ("outputBytes", .num (.ofNat outputBytes)), ("maximumBytes", .num (.ofNat TEMPLATE_MAX_OUTPUT_BYTES))])⟩
    return ⟨state.parts ++ [part], outputBytes, part.getLast?.any Text.isLeadSurrogate⟩

/-- `String(value)` of a string or a number. -/
def TemplateContextValue.text? : TemplateContextValue → Option Text
  | .string value => some value
  | .number value => some (Json.renderNumber value.val)
  | .boolean _ => none

def placeholderValue (key : Text) (context : TemplateContext) : Except CodedFailure Text :=
  match context.get? key with
  | none => failWith "COMPOSE-TEMPLATE-007" (Text.cat ["Template placeholder references an unknown context key: ", key])
      [("key", .str key), ("placeholder", .str (PLACEHOLDER_MARK ++ key ++ PLACEHOLDER_MARK))]
  | some value =>
      match value.text? with
      | some text => .ok text
      | none =>
          failWith "COMPOSE-TEMPLATE-007" (Text.cat
            ["Template placeholder requires a string or number context value: ", key])
            [("key", .str key), ("valueType", .str value.valueType)]

/-- The loop over the matches. -/
def interpolateFrom (context : TemplateContext) (content : Text) (state : Rendering) : Except CodedFailure Text :=
  match _h : nextPlaceholder content with
  | none => do
      let last ← state.append content
      return last.parts.flatten
  | some (before, key, behind) => do
      let literal ← state.append before
      let value ← placeholderValue key context
      let substituted ← literal.append value
      interpolateFrom context behind substituted
termination_by content.length
decreasing_by exact length_nextPlaceholder _h

def interpolate (content : Text) (context : TemplateContext) : Except CodedFailure Text :=
  interpolateFrom context content ⟨[], 0, false⟩

/-- Renders directives and literal substitutions, within the limits. -/
def renderTemplateString (content : Text) (context : Option (List (Text × ContextMember))) : Except CodedFailure Text := do
  assertInputBound content
  let normalizedContext ← normalizeContext context
  let rendered ← renderConditionals content normalizedContext
  interpolate rendered normalizedContext

end SecPlatform.Compiler.Templates
