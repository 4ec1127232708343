import SecPlatform.Library.Text

/-!
# Logical paths

Portable spelling of repository paths, and the paths that are test modules. Two functions of the language on Unicode
text are parameters.
-/

namespace SecPlatform.Contracts

/-- What `.` does not match in a pattern. -/
def isLineTerminator (c : CodeUnit) : Bool := c ∈ ([0xA, 0xD, 0x2028, 0x2029] : List CodeUnit)

/-! ## Test modules -/

/-- `value.replaceAll('\\', '/').replace(/^\.\//u, '')`. -/
def normalizeSecRepositoryTestModulePath (value : Text) : Text :=
  let portable := value.map fun c => if c = unit '\\' then unit '/' else c
  if Text.ofString "./" <+: portable then portable.drop 2 else portable

/-- Letters compared without case: ASCII, and the long s, which folds to `s`. -/
def foldCase (c : CodeUnit) : CodeUnit :=
  if unit 'A' ≤ c ∧ c ≤ unit 'Z' then c + 32 else if c = 0x17F then unit 's' else c

/-- `[._](?:test|spec)\.(?:[cm]?[jt]s|[jt]sx)`, alternative by alternative. -/
def testModuleSuffixes : List Text := do
  let separator ← [".", "_"]
  let role ← ["test", "spec"]
  let extension ← ["js", "ts", "cjs", "cts", "mjs", "mts", "jsx", "tsx"]
  return separator ++ role ++ "." ++ extension

/-- `/^(?:src|tests)\/.+[._](?:test|spec)\.(?:[cm]?[jt]s|[jt]sx)$/iu`. -/
def SEC_REPOSITORY_TEST_MODULE_PATH (value : Text) : Bool :=
  let folded := value.map foldCase
  [Text.ofString "src/", Text.ofString "tests/"].any fun start => testModuleSuffixes.any fun suffix =>
    let between := (folded.drop start.length).take (folded.length - start.length - suffix.length)
    start <+: folded ∧ suffix <:+ folded ∧ start.length + suffix.length < folded.length ∧
      between.all fun c => !isLineTerminator c

def isSecRepositoryTestModulePath (value : Text) : Bool :=
  SEC_REPOSITORY_TEST_MODULE_PATH (normalizeSecRepositoryTestModulePath value)

/-! ## Paths of the portable path module -/

/-- One segment of `path.posix.normalize`: `..` removes the segment before it, unless that is `..` as well. -/
def normalizeSegment (allowAboveRoot : Bool) (resolved : List Text) (segment : Text) : List Text :=
  if segment = [] ∨ segment = Text.ofString "." then resolved
  else if segment = Text.ofString ".." then
    if resolved.getLast?.any fun last => last ≠ Text.ofString ".." then resolved.dropLast
    else if allowAboveRoot then resolved ++ [segment]
    else resolved
  else resolved ++ [segment]

/-- `path.posix.isAbsolute`. -/
def posixIsAbsolute (value : Text) : Bool := value.head? = some (unit '/')

/-- `path.posix.normalize`. -/
def posixNormalize (value : Text) : Text :=
  if value = [] then "."
  else
    let trailingSeparator := value.getLast? = some (unit '/')
    let resolved := Text.joinWith [unit '/']
      ((Text.splitAt (unit '/') value).foldl (normalizeSegment !posixIsAbsolute value) [])
    if resolved = [] then
      if posixIsAbsolute value then "/" else if trailingSeparator then "./" else "."
    else
      let closed := if trailingSeparator then resolved ++ [unit '/'] else resolved
      if posixIsAbsolute value then unit '/' :: closed else closed

example : posixNormalize "a/./b/../../../c//d/" = Text.ofString "../c/d/" := by decide

/-! ## Portable paths -/

/-- Functions of the language on Unicode text. -/
class UnicodeText where
  /-- `toLowerCase()`. -/
  toLowerCase : Text → Text
  /-- `normalize('NFC')`. -/
  normalizeNFC : Text → Text

variable [UnicodeText]

/-- The device names without an extension: `con|prn|aux|nul|(?:com|lpt)[1-9\u00b9\u00b2\u00b3]`. -/
def windowsReservedStems : List Text :=
  let ports : List Text := do
    let port ← [Text.ofString "com", Text.ofString "lpt"]
    let digit ← ["1", "2", "3", "4", "5", "6", "7", "8", "9"].map Text.ofString ++ [[0xB9], [0xB2], [0xB3]]
    return port ++ digit
  ["con", "prn", "aux", "nul"].map Text.ofString ++ ports

/-- `WINDOWS_RESERVED_DEVICE_NAME.test(value.toLowerCase())`; an extension is a dot and text on one line. -/
def isWindowsReservedLogicalComponent (value : Text) : Bool :=
  let lower := UnicodeText.toLowerCase value
  windowsReservedStems.any fun stem =>
    let rest := lower.drop stem.length
    stem <+: lower && (rest = [] || (Text.ofString "." <+: rest && rest.all fun c => !isLineTerminator c))

/-- `/[<>:"|?*\u0000-\u001f]/u`. -/
def isForbiddenComponentCharacter (c : CodeUnit) : Bool :=
  c ∈ (Text.ofString "<>:\"|?*") || c ≤ 0x1F

def canonicalComponent (component : Text) : Bool :=
  decide (component ≠ []) && decide (component ≠ Text.ofString ".") && decide (component ≠ Text.ofString "..") &&
    decide (UnicodeText.normalizeNFC component = component) && !component.any isForbiddenComponentCharacter &&
    !decide (Text.ofString "." <:+ component) && !decide (Text.ofString " " <:+ component) &&
    !isWindowsReservedLogicalComponent component

/-- `/^[A-Za-z]:/u`. -/
def hasWindowsDrivePrefix : Text → Bool
  | c :: d :: _ => ((unit 'A' ≤ c && c ≤ unit 'Z') || (unit 'a' ≤ c && c ≤ unit 'z')) && d = unit ':'
  | _ => false

/-- The default options: the empty path is not allowed. -/
def isCanonicalPortableLogicalPath (value : Text) : Bool :=
  decide (value ≠ []) && !(value.contains (unit '\\') || Text.ofString "/" <+: value || hasWindowsDrivePrefix value ||
    decide (UnicodeText.normalizeNFC value ≠ value)) && (Text.splitAt (unit '/') value).all canonicalComponent

def assertCanonicalPortableLogicalPath (value label : Text) : Except Text Unit :=
  if isCanonicalPortableLogicalPath value then .ok ()
  else .error (label ++ Text.ofString " is not one canonical portable logical path: " ++ value)

/-! ## Collisions -/

/-- The case mappings of the language for one locale. -/
class LocaleCase where
  /-- `toLocaleUpperCase('en-US')`. -/
  toLocaleUpperCase : Text → Text
  /-- `toLocaleLowerCase('en-US')`. -/
  toLocaleLowerCase : Text → Text

section Collisions

variable [LocaleCase]

def collisionComponent (component : Text) : Text :=
  UnicodeText.normalizeNFC (LocaleCase.toLocaleLowerCase (LocaleCase.toLocaleUpperCase component))

/-- The key of a path that is portable. -/
def collisionKey (value : Text) : Text :=
  Text.joinWith [unit '/'] ((Text.splitAt (unit '/') value).map collisionComponent)

def portableLogicalPathCollisionKey (value label : Text) : Except Text Text := do
  assertCanonicalPortableLogicalPath value label
  return collisionKey value

end Collisions

end SecPlatform.Contracts
