import SecPlatform.Overrides.Workspace

/-!
# What one publication does

Everything before the last request of a publication leaves the files alone, so a publication either does nothing or writes
its target as it was checked.
-/

namespace SecPlatform.Overrides

open Contracts
open CallM

abbrev Event : Type := Calls.Event Request fun request => Except Thrown request.Answer

def Request.writes : Request → Bool
  | .publishExclusive .. | .replace .. | .delete _ => true
  | _ => false

/-- A request that leaves the files alone. -/
def Quiet (request : Request) : Prop := request.writes = false

section Files

variable [FileSystem] {files files' : Files}

theorem performs_quiet {request : Request} {answer : Except Thrown request.Answer} (hquiet : Quiet request)
    (h : Performs files request answer files') : files' = files := by
  cases h with
  | created | replaced | deleted => cases hquiet
  | _ => rfl

theorem passes_quiet {events : List Event} (hquiet : ∀ event ∈ events, Quiet event.request)
    (h : Passes Performs Undisturbed files events files') : files' = files := by
  induction events generalizing files with
  | nil => exact passes_nil.mp h
  | cons event events ih =>
      obtain ⟨files₁, hperform, hrest⟩ := passes_undisturbed.mp h
      obtain rfl := performs_quiet (hquiet event List.mem_cons_self) hperform
      exact ih (fun other hother => hquiet other (List.mem_cons_of_mem _ hother)) hrest

/-- A single request, alone in the world. -/
theorem passes_single {event : Event} (h : Passes Performs Undisturbed files [event] files') :
    Performs files event.request event.answer files' := by
  obtain ⟨files₁, hperform, hrest⟩ := passes_undisturbed.mp h
  obtain rfl := passes_nil.mp hrest
  exact hperform

end Files

/-! ## Quiet programs -/

section Quiet

variable {fence : Apply Unit}

theorem quiet_creatableParent [UnicodeText] (hfence : Within Quiet fence) (targetPath : Text) :
    Within Quiet (retainedCreatablePublicationParent targetPath fence) := by
  refine within_bind within_result fun segments => within_bind within_result fun _ => ?_
  refine within_bind (within_perform rfl) fun _ => within_bind hfence fun _ => ?_
  split
  · exact within_pure
  · exact within_perform rfl

theorem quiet_existingParent [UnicodeText] (hfence : Within Quiet fence) (targetPath : Text) :
    Within Quiet (retainedExistingPublicationParent targetPath fence) :=
  within_bind within_result fun _ => within_bind hfence fun _ => within_perform rfl

theorem quiet_publicationFence (override : PreparedOverride) : Within Quiet (publicationFence override) :=
  within_bind (within_perform rfl) fun _ => within_bind (within_perform rfl) fun _ => within_result

theorem quiet_pure {α : Type} (a : α) : Within Quiet (pure a : Apply α) := within_pure

end Quiet

/-! ## Publications -/

section Publications

variable [FileSystem] {files files' : Files} {fence : Apply Unit} {targetPath label : Text} {bytes expectedBytes : Bytes}
  {published published' : List PreparedOverride} {events : List Event}

/-- A quiet part of a run changes nothing. -/
theorem Within.same {α : Type} {x : Apply α} (hx : Within Quiet x) {outcome : Except Thrown α}
    (h : Ends x published events outcome published') (hpasses : Passes Performs Undisturbed files events files') :
    published' = published ∧ files' = files := by
  obtain ⟨hstate, hquiet⟩ := hx _ _ _ _ h
  exact ⟨hstate, passes_quiet hquiet hpasses⟩

/-- Behind a quiet part the files are as they were. -/
theorem Within.bind {α β : Type} {x : Apply α} {f : α → Apply β} (hx : Within Quiet x) {outcome : Except Thrown β}
    (h : Ends (x >>= f) published events outcome published')
    (hpasses : Passes Performs Undisturbed files events files') :
    (∃ e, outcome = .error e ∧ published' = published ∧ files' = files) ∨
      ∃ a after, Ends (f a) published after outcome published' ∧ Passes Performs Undisturbed files after files' := by
  rcases ends_bind.mp h with ⟨e, hthrow, rfl⟩ | ⟨before, a, published₁, after, rfl, hfirst, hnext⟩
  · exact .inl ⟨e, rfl, Within.same hx hthrow hpasses⟩
  · obtain ⟨files₁, hbefore, hafter⟩ := passes_append.mp hpasses
    obtain ⟨rfl, rfl⟩ := Within.same hx hfirst hbefore
    exact .inr ⟨a, after, hnext, hafter⟩

/-- What an exclusive publication does. -/
def ExclusiveOutcome (targetPath : Text) (bytes : Bytes) (files files' : Files) : Except Thrown Bool → Prop
  | .error _ => files' = files
  | .ok true => files (FileSystem.file targetPath) = none ∧ files' = files.write targetPath (some bytes)
  | .ok false => files (FileSystem.file targetPath) = some bytes ∧ files' = files

theorem publishExclusive_outcome [UnicodeText] (hfence : Within Quiet fence) {outcome : Except Thrown Bool}
    (h : Ends (publishExclusiveCanonicalWorkspaceFile targetPath bytes fence) published events outcome published')
    (hpasses : Passes Performs Undisturbed files events files') :
    published' = published ∧ ExclusiveOutcome targetPath bytes files files' outcome := by
  unfold publishExclusiveCanonicalWorkspaceFile at h
  rcases Within.bind (quiet_creatableParent hfence targetPath) h hpasses with
    ⟨e, rfl, rfl, rfl⟩ | ⟨_, fenced, hfenced, hpassesFenced⟩
  · exact ⟨rfl, rfl⟩
  rcases Within.bind hfence hfenced hpassesFenced with ⟨e, rfl, rfl, rfl⟩ | ⟨_, last, hlast, hpassesLast⟩
  · exact ⟨rfl, rfl⟩
  obtain ⟨rfl, rfl⟩ := ends_perform.mp hlast
  refine ⟨rfl, ?_⟩
  have hperform := passes_single hpassesLast
  dsimp only at hperform
  cases hperform with
  | threw => rfl
  | created habsent => exact ⟨habsent, rfl⟩
  | adopted hpresent => exact ⟨hpresent, rfl⟩

/-- What a publication against expected bytes does. -/
def ExpectedOutcome (targetPath : Text) (expectedBytes : Bytes) (bytes : Option Bytes) (files files' : Files) :
    Except Thrown Unit → Prop
  | .error _ => files' = files
  | .ok () => files (FileSystem.file targetPath) = some expectedBytes ∧ files' = files.write targetPath bytes

/-- A check of a target and the request behind it. -/
theorem checked_outcome {message : Thrown} {last : Apply Unit} {written : Option Bytes}
    (hlast : ∀ {events outcome}, Ends last published events outcome published' → published' = published ∧
      (Passes Performs Undisturbed files events files' → files' = match outcome with
        | .error _ => files
        | .ok () => files.write targetPath written)) {outcome : Except Thrown Unit}
    (h : Ends (ask (.check targetPath) >>= fun current => result (require (current = some expectedBytes) message) >>=
      fun _ => last) published events outcome published')
    (hpasses : Passes Performs Undisturbed files events files') :
    published' = published ∧ ExpectedOutcome targetPath expectedBytes written files files' outcome := by
  rcases ends_perform_bind.mp h with ⟨e, rfl, rfl, rfl⟩ | ⟨current, after, rfl, hrest⟩
  · exact ⟨rfl, performs_quiet (show Quiet (.check targetPath) from rfl) (passes_single hpasses)⟩
  obtain ⟨files₁, hcheck, hpassesRest⟩ := passes_undisturbed.mp hpasses
  cases hcheck
  rcases ends_result_bind.mp hrest with ⟨e, -, rfl, rfl, rfl⟩ | ⟨_, hexpected, hend⟩
  · exact ⟨rfl, passes_nil.mp hpassesRest⟩
  obtain ⟨rfl, hfiles⟩ := hlast hend
  refine ⟨rfl, ?_⟩
  cases outcome with
  | error e => exact hfiles hpassesRest
  | ok => exact ⟨require_eq_ok.mp hexpected, hfiles hpassesRest⟩

theorem publishExpected_outcome [UnicodeText] (hfence : Within Quiet fence) {outcome : Except Thrown Unit}
    (h : Ends (publishExpectedCanonicalWorkspaceFile targetPath expectedBytes bytes label fence) published events outcome
      published')
    (hpasses : Passes Performs Undisturbed files events files') :
    published' = published ∧ ExpectedOutcome targetPath expectedBytes (some bytes) files files' outcome := by
  unfold publishExpectedCanonicalWorkspaceFile at h
  rcases Within.bind (quiet_existingParent hfence targetPath) h hpasses with
    ⟨e, rfl, rfl, rfl⟩ | ⟨_, fenced, hfenced, hpassesFenced⟩
  · exact ⟨rfl, rfl⟩
  rcases Within.bind hfence hfenced hpassesFenced with ⟨e, rfl, rfl, rfl⟩ | ⟨_, checked, hchecked, hpassesChecked⟩
  · exact ⟨rfl, rfl⟩
  refine checked_outcome (fun hend => ?_) hchecked hpassesChecked
  obtain ⟨rfl, rfl⟩ := ends_perform.mp hend
  refine ⟨rfl, fun hpassesLast => ?_⟩
  have hperform := passes_single hpassesLast
  dsimp only at hperform
  cases hperform <;> rfl

theorem deleteExpected_outcome [UnicodeText] {outcome : Except Thrown Unit}
    (h : Ends (deleteExpectedCanonicalWorkspaceFile targetPath expectedBytes label) published events outcome published')
    (hpasses : Passes Performs Undisturbed files events files') :
    published' = published ∧ ExpectedOutcome targetPath expectedBytes none files files' outcome := by
  unfold deleteExpectedCanonicalWorkspaceFile at h
  rcases Within.bind (quiet_existingParent (quiet_pure ()) targetPath) h hpasses with
    ⟨e, rfl, rfl, rfl⟩ | ⟨_, checked, hchecked, hpassesChecked⟩
  · exact ⟨rfl, rfl⟩
  refine checked_outcome (fun hend => ?_) hchecked hpassesChecked
  obtain ⟨rfl, rfl⟩ := ends_perform.mp hend
  refine ⟨rfl, fun hpassesLast => ?_⟩
  have hperform := passes_single hpassesLast
  dsimp only at hperform
  cases hperform <;> rfl

end Publications

end SecPlatform.Overrides
