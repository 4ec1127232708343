import Mathlib.Data.List.Perm.Basic
import SecPlatform.Library.Related
import SecPlatform.WorkSelection.Parse

/-!
# Inputs in another order

An input whose candidates and whose lists of facts and references are written in another order is read as the same input:
labels decide no more than the text of an error, and lists without duplicates sort to the same list.
-/

namespace SecPlatform.WorkSelection

open Contracts

/-! ## Reordered values -/

/-- Members under the same keys, with values that are the same or related. -/
def SameMembers (R : Text → Value → Value → Prop) (members members' : List (Text × Value)) : Prop :=
  members.Forall₂ (fun m m' => m.1 = m'.1 ∧ (m.2 = m'.2 ∨ R m.1 m.2 m'.2)) members'

def ReorderedList (value value' : Value) : Prop := ∃ items items', value = .arr items ∧ value' = .arr items' ∧ items.Perm items'

/-- The lists of a candidate that are sorted. -/
def CANDIDATE_LISTS : List Text := ["priorityEvidenceRefs", "prerequisiteFacts", "orderedAfterFacts", "conflictDecisionRefs"]

/-- The candidate with its lists in another order. -/
def ReorderedCandidate (value value' : Value) : Prop :=
  ∃ members members', value = .obj members ∧ value' = .obj members' ∧
    SameMembers (fun key v v' => key ∈ CANDIDATE_LISTS ∧ ReorderedList v v') members members'

/-- The candidates, each reordered, in another order. -/
def ReorderedCandidates (value value' : Value) : Prop :=
  ∃ items items' permuted, value = .arr items ∧ items.Forall₂ ReorderedCandidate items' ∧ items'.Perm permuted ∧
    value' = .arr permuted

/-- The input with its candidates and their lists in another order. -/
def ReorderedInput (value value' : Value) : Prop :=
  ∃ members members', value = .obj members ∧ value' = .obj members' ∧
    SameMembers (fun key v v' => key = "candidates" ∧ ReorderedCandidates v v') members members'

section Members

variable {R : Text → Value → Value → Prop} {members members' : List (Text × Value)}

theorem SameMembers.keys (h : SameMembers R members members') : members.map Prod.fst = members'.map Prod.fst :=
  map_eq_map_iff_forall₂.mpr (h.imp fun _ _ hm => hm.1)

theorem SameMembers.member (h : SameMembers R members members') (key : Text) :
    member members key = member members' key ∨ R key (member members key) (member members' key) := by
  unfold WorkSelection.member
  induction h with
  | nil => exact .inl rfl
  | @cons m m' ms ms' hm _ ih =>
      obtain ⟨k, v⟩ := m
      obtain ⟨k', v'⟩ := m'
      obtain ⟨rfl, hvalue⟩ := hm
      unfold Json.get?
      by_cases hkey : k = key
      · subst hkey
        rw [if_pos rfl, if_pos rfl]
        exact hvalue
      · rw [if_neg hkey, if_neg hkey]
        exact ih

end Members

/-! ## Labels -/

/-- The label decides no more than the text of an error. -/
def LabelFree {α : Type} (f : Value → Text → Except Text α) : Prop := ∀ value label label', Follows (f value label) (f value label')

theorem labelFree_record : LabelFree record := by
  intro value label label' members h
  cases value with
  | obj => exact h
  | _ => cases h

theorem labelFree_array : LabelFree array := by
  intro value label label' items h
  cases value with
  | arr => exact h
  | _ => cases h

theorem labelFree_checkedText (p : Text → Bool) (message : Text) : LabelFree (checkedText p message) := by
  intro value label label' s h
  cases value with
  | str => exact (Follows.require id).bind (fun _ => .refl _) s h
  | _ => cases h

theorem labelFree_grammarText (p : Text → Bool) (message : Text) : LabelFree (grammarText p message) :=
  fun value label label' => (labelFree_checkedText _ _ value label label').bind fun _ =>
    (Follows.require id).bind fun _ => .refl _

theorem labelFree_optionalReference : LabelFree optionalReference := by
  intro value label label'
  cases value with
  | null => exact .refl _
  | _ => exact (labelFree_grammarText _ _ _ label label').bind fun _ => .refl _

theorem labelFree_digest : LabelFree digest := by
  intro value label label'
  refine (labelFree_checkedText _ _ value label label').bind fun parsed s h => ?_
  split at h
  · rename_i hdigest
    rw [dif_pos hdigest]
    exact h
  · cases h

theorem labelFree_enumeration {α : Type} (values : List α) (spelling : α → Text) :
    LabelFree (enumeration values spelling) := by
  intro value label label' entry h
  unfold enumeration at h ⊢
  split at h
  · exact h
  · cases h

theorem labelFree_boolean : LabelFree boolean := by
  intro value label label' b h
  cases value with
  | bool => exact h
  | _ => cases h

theorem labelFree_nonNegativeInteger : LabelFree nonNegativeInteger := by
  intro value label label' n h
  unfold nonNegativeInteger at h ⊢
  split at h
  · exact h
  · cases h

theorem follows_exactKeys {members members' : List (Text × Value)} (h : members.map Prod.fst = members'.map Prod.fst)
    (expected : List Text) (label label' : Text) :
    Follows (exactKeys members expected label) (exactKeys members' expected label') :=
  Follows.require fun hkeys => h ▸ hkeys

/-! ## Lists -/

section Lists

variable {α : Type} {f : Value → Text → Except Text α}

/-- The results of the entries, whatever their labels. -/
theorem mapEntries_eq_ok (hf : LabelFree f) {label : Text} {items : List Value} {results : List α} :
    mapEntries f label items = .ok results ↔ items.Forall₂ (fun value result => f value [] = .ok result) results := by
  unfold mapEntries
  rw [mapM_eq_ok]
  conv_rhs => rw [← List.zipIdx_map_fst 0 items]
  rw [List.forall₂_map_left_iff]
  have hlabel (value : Value) (label : Text) (result : α) : f value label = .ok result ↔ f value [] = .ok result :=
    ⟨hf value label [] result, hf value [] label result⟩
  simp only [hlabel]

theorem mapEntries_perm (hf : LabelFree f) {label : Text} (label' : Text) {items items' : List Value} {results : List α}
    (hperm : items.Perm items') (h : mapEntries f label items = .ok results) :
    ∃ results', mapEntries f label' items' = .ok results' ∧ results.Perm results' := by
  obtain ⟨results', hresults, hperm'⟩ := List.perm_comp_forall₂ hperm.symm ((mapEntries_eq_ok hf).mp h)
  exact ⟨results', (mapEntries_eq_ok hf).mpr hresults, hperm'.symm⟩

end Lists

theorem array_eq_ok {value : Value} {label : Text} {items : List Value} (h : array value label = .ok items) :
    value = .arr items := by
  cases value with
  | arr => exact congrArg Json.arr (Except.ok.inj h)
  | _ => cases h

theorem exists_perm_of_reordered {value value' : Value} {items : List Value} (h : value = value' ∨ ReorderedList value value')
    (hvalue : value = .arr items) : ∃ items', value' = .arr items' ∧ items.Perm items' := by
  subst hvalue
  rcases h with rfl | ⟨xs, ys, heq, rfl, hperm⟩
  · exact ⟨items, rfl, .refl _⟩
  · obtain rfl := Json.arr.inj heq
    exact ⟨ys, rfl, hperm⟩

/-- A list that is sorted by keys without duplicates is read the same in any order. -/
theorem follows_sorted {α : Type} {f : Value → Text → Except Text α} (hf : LabelFree f) (key : α → Text)
    {value value' : Value} (h : value = value' ∨ ReorderedList value value') (label label' e e' : Text) :
    Follows
      (array value label >>= fun items => mapEntries f label items >>= fun parsed =>
        require (parsed.map key).Nodup e >>= fun _ => pure (sortBy key parsed))
      (array value' label' >>= fun items => mapEntries f label' items >>= fun parsed =>
        require (parsed.map key).Nodup e' >>= fun _ => pure (sortBy key parsed)) := by
  intro results hrun
  obtain ⟨items, hitems, hrun⟩ := bind_eq_ok.mp hrun
  obtain ⟨parsed, hparsed, hrun⟩ := bind_eq_ok.mp hrun
  obtain ⟨hnodup, hrun⟩ := check_bind_eq_ok.mp hrun
  have hnodup := require_eq_ok.mp hnodup
  obtain rfl := Except.ok.inj hrun
  obtain ⟨items', rfl, hperm⟩ := exists_perm_of_reordered h (array_eq_ok hitems)
  obtain ⟨parsed', hparsed', hperm'⟩ := mapEntries_perm hf label' hperm hparsed
  have hnodup' : (parsed'.map key).Nodup := (hperm'.map key).nodup_iff.mp hnodup
  refine bind_eq_ok.mpr ⟨items', rfl, bind_eq_ok.mpr ⟨parsed', hparsed', ?_⟩⟩
  refine check_bind_eq_ok.mpr ⟨require_eq_ok.mpr hnodup', congrArg Except.ok ?_⟩
  exact (sortBy_eq_of_perm hperm' fun a ha b hb heq => List.inj_on_of_nodup_map hnodup ha hb heq).symm

theorem follows_sortedUniqueTexts {value value' : Value} (h : value = value' ∨ ReorderedList value value')
    (label label' : Text) : Follows (sortedUniqueTexts value label) (sortedUniqueTexts value' label') := by
  have hreference : LabelFree reference := labelFree_grammarText _ _
  have hsorted := follows_sorted hreference id h label label'
    (refusal label " contains a duplicate ref.") (refusal label' " contains a duplicate ref.")
  simp only [List.map_id] at hsorted
  exact hsorted

theorem labelFree_parseDependencyFact : LabelFree parseDependencyFact := fun value label label' =>
  (labelFree_record value label label').bind fun _ => (follows_exactKeys rfl _ _ _).bind fun _ =>
    (labelFree_grammarText _ _ _ _ _).bind fun _ => (labelFree_enumeration _ _ _ _ _).bind fun _ => .refl _

theorem follows_parseDependencyFacts {value value' : Value} (h : value = value' ∨ ReorderedList value value')
    (label label' : Text) : Follows (parseDependencyFacts value label) (parseDependencyFacts value' label') :=
  follows_sorted labelFree_parseDependencyFact WorkDependencyFact.ref h label label' _ _

/-! ## Candidates -/

section Candidates

variable {members members' : List (Text × Value)}

/-- The candidate is read field by field, and a list of it in any order. -/
theorem follows_parseCandidateFields
    (h : SameMembers (fun key v v' => key ∈ CANDIDATE_LISTS ∧ ReorderedList v v') members members')
    (prerequisiteFacts orderedAfterFacts : List WorkDependencyFact) (label label' : Text) :
    Follows (parseCandidateFields members prerequisiteFacts orderedAfterFacts label)
      (parseCandidateFields members' prerequisiteFacts orderedAfterFacts label') := by
  have hfield {α : Type} {f : Value → Text → Except Text α} (hf : LabelFree f) (key : Text) (hkey : key ∉ CANDIDATE_LISTS)
      (l l' : Text) : Follows (f (member members key) l) (f (member members' key) l') := by
    rw [(h.member key).resolve_right fun hlist => hkey hlist.1]
    exact hf _ l l'
  have hlist (key l l' : Text) :
      Follows (sortedUniqueTexts (member members key) l) (sortedUniqueTexts (member members' key) l') :=
    follows_sortedUniqueTexts ((h.member key).imp id And.right) l l'
  have htext (p : Text → Bool) (message : Text) := labelFree_grammarText p message
  unfold parseCandidateFields
  refine (hfield (htext _ _) "workId" (by decide) _ _).bind fun _ => ?_
  refine (hfield (htext _ _) "candidateRef" (by decide) _ _).bind fun _ => ?_
  refine (hfield (htext _ _) "currentSpecRef" (by decide) _ _).bind fun _ => ?_
  refine (hfield labelFree_digest "currentSpecRevision" (by decide) _ _).bind fun _ => ?_
  refine (hfield labelFree_optionalReference "ownerRef" (by decide) _ _).bind fun _ => ?_
  refine (hfield (labelFree_enumeration _ _) "kind" (by decide) _ _).bind fun _ => ?_
  refine (hfield (labelFree_enumeration _ _) "lifecycle" (by decide) _ _).bind fun _ => ?_
  refine (hfield (htext _ _) "lifecycleRef" (by decide) _ _).bind fun _ => ?_
  refine (hfield (labelFree_enumeration _ _) "priorityClass" (by decide) _ _).bind fun _ => ?_
  refine (hlist "priorityEvidenceRefs" _ _).bind fun _ => ?_
  refine (hfield (labelFree_enumeration _ _) "readiness" (by decide) _ _).bind fun _ => ?_
  refine (hfield (htext _ _) "readinessRef" (by decide) _ _).bind fun _ => ?_
  refine (hfield (labelFree_enumeration _ _) "conflictStatus" (by decide) _ _).bind fun _ => ?_
  refine (hlist "conflictDecisionRefs" _ _).bind fun _ => ?_
  refine (hfield labelFree_nonNegativeInteger "blockedReadySuccessorCount" (by decide) _ _).bind fun _ => ?_
  refine (hfield labelFree_boolean "roadmapDirect" (by decide) _ _).bind fun _ => ?_
  refine (hfield (labelFree_enumeration _ _) "reproductionOrEvidenceFreshness" (by decide) _ _).bind fun _ => ?_
  refine (hfield (labelFree_enumeration _ _) "rootCauseState" (by decide) _ _).bind fun _ => ?_
  refine (hfield (htext _ _) "rootCauseRef" (by decide) _ _).bind fun _ => ?_
  refine (hfield (labelFree_enumeration _ _) "scopeClosure" (by decide) _ _).bind fun _ => ?_
  refine (hfield labelFree_optionalReference "exitCriteriaRef" (by decide) _ _).bind fun _ => ?_
  refine (hfield labelFree_optionalReference "nearTermConsumerRef" (by decide) _ _).bind fun _ => ?_
  refine (hfield labelFree_optionalReference "humanDecisionRef" (by decide) _ _).bind fun _ => ?_
  exact .refl _

theorem follows_assertCandidate (parsed : WorkCandidate) (label label' : Text) :
    Follows (assertCandidate parsed label) (assertCandidate parsed label') :=
  (Follows.require id).bind fun _ => (Follows.require id).bind fun _ => (Follows.require id).bind fun _ =>
    (Follows.require id).bind fun _ => Follows.require id

theorem follows_parseCandidate {value value' : Value} (h : ReorderedCandidate value value') (label label' : Text) :
    Follows (parseCandidate value label) (parseCandidate value' label') := by
  obtain ⟨members, members', rfl, rfl, h⟩ := h
  have hfacts (key l l' : Text) :
      Follows (parseDependencyFacts (member members key) l) (parseDependencyFacts (member members' key) l') :=
    follows_parseDependencyFacts ((h.member key).imp id And.right) l l'
  rw [parseCandidate, parseCandidate, record, record, ok_bind, ok_bind]
  refine (follows_exactKeys h.keys _ _ _).bind fun _ => ?_
  refine (hfacts "prerequisiteFacts" _ _).bind fun _ => (hfacts "orderedAfterFacts" _ _).bind fun _ => ?_
  refine (Follows.require id).bind fun _ => ?_
  exact (follows_parseCandidateFields h _ _ _ _).bind fun parsed =>
    (follows_assertCandidate parsed _ _).bind fun _ => .refl _

end Candidates

theorem labelFree_parseCandidate : LabelFree parseCandidate := by
  intro value label label' parsed h
  cases value with
  | obj members =>
      exact follows_parseCandidate ⟨members, members, rfl, rfl, List.forall₂_same.mpr fun m _ => ⟨rfl, .inl rfl⟩⟩ _ _ _ h
  | _ => cases h

/-- The results of reordered entries are the same. -/
theorem mapEntries_reordered {items items' : List Value} {label : Text} (label' : Text) {candidates : List WorkCandidate}
    (h : items.Forall₂ ReorderedCandidate items') (hparsed : mapEntries parseCandidate label items = .ok candidates) :
    mapEntries parseCandidate label' items' = .ok candidates := by
  refine (mapEntries_eq_ok labelFree_parseCandidate).mpr ?_
  refine (forall₂_trans h.flip ((mapEntries_eq_ok labelFree_parseCandidate).mp hparsed)).imp ?_
  rintro value' candidate ⟨value, hreordered, hcandidate⟩
  exact follows_parseCandidate hreordered _ _ _ hcandidate

theorem follows_normalizeCandidates {value value' : Value} (h : ReorderedCandidates value value') :
    Follows (normalizeCandidates value) (normalizeCandidates value') := by
  obtain ⟨items, items', permuted, rfl, hitems, hperm, rfl⟩ := h
  intro candidates hrun
  rw [normalizeCandidates, array, ok_bind] at hrun
  obtain ⟨parsed, hparsed, hrun⟩ := bind_eq_ok.mp hrun
  obtain ⟨hwork, hrun⟩ := check_bind_eq_ok.mp hrun
  obtain ⟨href, hrun⟩ := check_bind_eq_ok.mp hrun
  obtain ⟨hspec, hrun⟩ := check_bind_eq_ok.mp hrun
  obtain rfl := Except.ok.inj hrun
  have hwork := require_eq_ok.mp hwork
  have hreordered := mapEntries_reordered "candidates" hitems hparsed
  obtain ⟨parsed', hparsed', hperm'⟩ := mapEntries_perm labelFree_parseCandidate "candidates" hperm hreordered
  rw [normalizeCandidates, array, ok_bind]
  refine bind_eq_ok.mpr ⟨parsed', hparsed', ?_⟩
  refine check_bind_eq_ok.mpr ⟨require_eq_ok.mpr ((hperm'.map _).nodup_iff.mp hwork), ?_⟩
  refine check_bind_eq_ok.mpr ⟨require_eq_ok.mpr ((hperm'.map _).nodup_iff.mp (require_eq_ok.mp href)), ?_⟩
  refine check_bind_eq_ok.mpr ⟨require_eq_ok.mpr ((hperm'.map _).nodup_iff.mp (require_eq_ok.mp hspec)), ?_⟩
  refine congrArg Except.ok (sortBy_eq_of_perm hperm' fun a ha b hb heq => ?_).symm
  exact List.inj_on_of_nodup_map hwork ha hb heq

/-! ## Inputs -/

theorem follows_parseWorkSelectionInput [Sha256] {value value' : Value} (h : ReorderedInput value value') :
    Follows (parseWorkSelectionInput value) (parseWorkSelectionInput value') := by
  obtain ⟨members, members', rfl, rfl, h⟩ := h
  have hsame (key : Text) (hkey : key ≠ Text.ofString "candidates") : member members key = member members' key :=
    (h.member key).resolve_right fun hcandidates => hkey hcandidates.1
  have hcandidates : Follows (normalizeCandidates (member members "candidates"))
      (normalizeCandidates (member members' "candidates")) := by
    rcases h.member "candidates" with heq | ⟨-, hreordered⟩
    · exact heq ▸ .refl _
    · exact follows_normalizeCandidates hreordered
  rw [parseWorkSelectionInput, parseWorkSelectionInput, record, record, ok_bind, ok_bind,
    hsame "schema" (by decide), hsame "identity" (by decide), hsame "current" (by decide)]
  refine (follows_exactKeys h.keys _ _ _).bind fun _ => (Follows.refl _).bind fun _ => (Follows.refl _).bind fun _ => ?_
  refine (Follows.refl _).bind fun _ => (Follows.refl _).bind fun _ => (Follows.refl _).bind fun _ => ?_
  refine (Follows.refl _).bind fun _ => (Follows.refl _).bind fun _ => ?_
  exact hcandidates.bind fun _ => .refl _

/-! ## Accepted candidates -/

/-- What a selection relies on. -/
structure Accepted (candidates : List WorkCandidate) : Prop where
  distinctWork : (candidates.map WorkCandidate.workId).Nodup
  distinctRefs : (candidates.map WorkCandidate.candidateRef).Nodup
  owned : ∀ candidate ∈ candidates, candidate.conflictDecisionRefs ≠ []

theorem owned_of_parseCandidate {value : Value} {label : Text} {candidate : WorkCandidate}
    (h : parseCandidate value label = .ok candidate) : candidate.conflictDecisionRefs ≠ [] := by
  unfold parseCandidate at h
  obtain ⟨item, -, h⟩ := bind_eq_ok.mp h
  obtain ⟨-, h⟩ := check_bind_eq_ok.mp h
  obtain ⟨prerequisiteFacts, -, h⟩ := bind_eq_ok.mp h
  obtain ⟨orderedAfterFacts, -, h⟩ := bind_eq_ok.mp h
  obtain ⟨-, h⟩ := check_bind_eq_ok.mp h
  obtain ⟨parsed, -, h⟩ := bind_eq_ok.mp h
  obtain ⟨hassert, h⟩ := check_bind_eq_ok.mp h
  obtain rfl := Except.ok.inj h
  exact require_eq_ok.mp (check_bind_eq_ok.mp hassert).1

theorem accepted_of_normalizeCandidates {value : Value} {candidates : List WorkCandidate}
    (h : normalizeCandidates value = .ok candidates) : Accepted candidates := by
  unfold normalizeCandidates at h
  obtain ⟨items, -, h⟩ := bind_eq_ok.mp h
  obtain ⟨parsed, hparsed, h⟩ := bind_eq_ok.mp h
  obtain ⟨hwork, h⟩ := check_bind_eq_ok.mp h
  obtain ⟨href, h⟩ := check_bind_eq_ok.mp h
  obtain ⟨-, h⟩ := check_bind_eq_ok.mp h
  obtain rfl := Except.ok.inj h
  have hperm : (sortBy WorkCandidate.workId parsed).Perm parsed := sortBy_perm parsed
  refine ⟨(hperm.map _).nodup_iff.mpr (require_eq_ok.mp hwork), (hperm.map _).nodup_iff.mpr (require_eq_ok.mp href), ?_⟩
  intro candidate hcandidate
  obtain ⟨entry, -, hentry⟩ := exists_of_mem_mapM hparsed (mem_sortBy.mp hcandidate)
  exact owned_of_parseCandidate hentry

theorem accepted_of_parse [Sha256] {value : Value} {input : WorkSelectionInput}
    (h : parseWorkSelectionInput value = .ok input) : Accepted input.candidates := by
  unfold parseWorkSelectionInput at h
  obtain ⟨members, -, h⟩ := bind_eq_ok.mp h
  obtain ⟨-, h⟩ := check_bind_eq_ok.mp h
  obtain ⟨-, h⟩ := check_bind_eq_ok.mp h
  obtain ⟨identity, -, h⟩ := bind_eq_ok.mp h
  obtain ⟨-, h⟩ := check_bind_eq_ok.mp h
  obtain ⟨-, h⟩ := check_bind_eq_ok.mp h
  obtain ⟨current, -, h⟩ := bind_eq_ok.mp h
  obtain ⟨-, h⟩ := check_bind_eq_ok.mp h
  obtain ⟨active, -, h⟩ := bind_eq_ok.mp h
  obtain ⟨candidates, hcandidates, h⟩ := bind_eq_ok.mp h
  obtain ⟨candidateSetRevision, -, h⟩ := bind_eq_ok.mp h
  obtain ⟨-, h⟩ := check_bind_eq_ok.mp h
  obtain ⟨main, -, h⟩ := bind_eq_ok.mp h
  obtain ⟨roadmapRevision, -, h⟩ := bind_eq_ok.mp h
  obtain ⟨lifecycle, -, h⟩ := bind_eq_ok.mp h
  obtain rfl := Except.ok.inj h
  exact accepted_of_normalizeCandidates hcandidates

end SecPlatform.WorkSelection
