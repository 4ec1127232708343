import Mathlib.Logic.Function.Basic
import SecPlatform.Overrides.Apply

/-!
# The files of a workspace

Two paths may name one file, as on a file system that ignores case, but portable paths do so only when they collide.
-/

namespace SecPlatform.Overrides

open Contracts

/-- The names of files, with the file that a path names. -/
class FileSystem where
  Name : Type
  decidable : DecidableEq Name
  file : Text → Name

instance [FileSystem] : DecidableEq FileSystem.Name := FileSystem.decidable

/-- Portable paths that name one file collide. -/
def Portable [FileSystem] [UnicodeText] [LocaleCase] : Prop :=
  ∀ path path', isCanonicalPortableLogicalPath path = true → isCanonicalPortableLogicalPath path' = true →
    FileSystem.file path = FileSystem.file path' → collisionKey path = collisionKey path'

section Files

variable [FileSystem]

/-- The bytes of every file there is. -/
abbrev Files : Type := FileSystem.Name → Option Bytes

def Files.write (files : Files) (path : Text) (bytes : Option Bytes) : Files :=
  Function.update files (FileSystem.file path) bytes

theorem Files.write_self (files : Files) (path : Text) (bytes : Option Bytes) :
    files.write path bytes (FileSystem.file path) = bytes := Function.update_self _ _ _

theorem Files.write_of_ne (files : Files) {path : Text} (bytes : Option Bytes) {name : FileSystem.Name}
    (h : FileSystem.file path ≠ name) : files.write path bytes name = files name := Function.update_of_ne h.symm _ _

/-- What an answered request does. A request that throws does nothing. -/
inductive Performs : Files → (request : Request) → Except Thrown request.Answer → Files → Prop
  | threw (files request e) : Performs files request (.error e) files
  | fence (files) : Performs files .fence (.ok ()) files
  | read (files path) : Performs files (.read path) (.ok (files (FileSystem.file path))) files
  | inspectDirectory (files path) : Performs files (.inspectDirectory path) (.ok ()) files
  | createDirectories (files path) : Performs files (.createDirectories path) (.ok ()) files
  | check (files path) : Performs files (.check path) (.ok (files (FileSystem.file path))) files
  | created {files path bytes} (h : files (FileSystem.file path) = none) :
      Performs files (.publishExclusive path bytes) (.ok true) (files.write path (some bytes))
  | adopted {files path bytes} (h : files (FileSystem.file path) = some bytes) :
      Performs files (.publishExclusive path bytes) (.ok false) files
  | replaced (files path bytes) : Performs files (.replace path bytes) (.ok ()) (files.write path (some bytes))
  | deleted (files path) : Performs files (.delete path) (.ok ()) (files.write path none)

/-- The same, where a request that throws may have done anything. -/
def PerformsUncertainly (files : Files) (request : Request) (answer : Except Thrown request.Answer) (files' : Files) :
    Prop := Performs files request answer files' ∨ ∃ e, answer = .error e

/-- The file that a request replaces or deletes. -/
def Request.overwrites : Request → Option Text
  | .replace path _ | .delete path => some path
  | _ => none

/-- Other writers may change anything, but not a target between its check and the request behind it. -/
def Leased (request : Request) (files files' : Files) : Prop :=
  ∀ path, request.overwrites = some path → files' (FileSystem.file path) = files (FileSystem.file path)

/-- Other writers may change anything at any time. -/
def Unleased (_ : Request) (_ _ : Files) : Prop := True

/-- An exclusive publication keeps a file that exists. -/
def respondExclusive (files : Files) (path : Text) (bytes : Bytes) : Except Thrown Bool × Files :=
  match files (FileSystem.file path) with
  | none => (.ok true, files.write path (some bytes))
  | some other => if other = bytes then (.ok false, files) else (.error (uncoded "conflict"), files)

/-- The world in which nothing else throws. -/
def respond (files : Files) : (request : Request) → Except Thrown request.Answer × Files
  | .fence | .inspectDirectory _ | .createDirectories _ => (.ok (), files)
  | .read path | .check path => (.ok (files (FileSystem.file path)), files)
  | .publishExclusive path bytes => respondExclusive files path bytes
  | .replace path bytes => (.ok (), files.write path (some bytes))
  | .delete path => (.ok (), files.write path none)

theorem performs_respond (files : Files) (request : Request) :
    Performs files request (respond files request).1 (respond files request).2 := by
  cases request with
  | fence => exact .fence files
  | read path => exact .read files path
  | inspectDirectory path => exact .inspectDirectory files path
  | createDirectories path => exact .createDirectories files path
  | check path => exact .check files path
  | publishExclusive path bytes =>
      rw [respond, respondExclusive]
      split
      · rename_i h
        exact .created h
      · rename_i other h
        split
        · rename_i heq
          exact .adopted (heq ▸ h)
        · exact .threw _ _ _
  | replace path bytes => exact .replaced files path bytes
  | delete path => exact .deleted files path

end Files

end SecPlatform.Overrides
