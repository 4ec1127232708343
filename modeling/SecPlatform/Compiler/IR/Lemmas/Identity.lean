import SecPlatform.Compiler.IR.Identity
import SecPlatform.Contracts.Lemmas.CanonicalEncoding
import SecPlatform.Library.Lines

/-!
# The parts of an identity

An id is the parts of its kind and its components between colons, and no part holds a colon. The first part tells the
kinds apart, except the steps of a scenario from the scenario, which the number of parts does.
-/

namespace SecPlatform.Compiler.IR

open Contracts Semantics
open Text (splitAt joinWith)

/-! ## Components -/

structure IsComponent (value : Text) : Prop where
  nonempty : value ≠ []
  trimmed : value.trim = value
  colonFree : unit ':' ∉ value
  nulFree : 0 ∉ value

theorem isSemanticIdentityComponent_iff {value : Text} {fieldTarget : Bool} :
    isSemanticIdentityComponent value fieldTarget = true ↔
      IsComponent value ∧ (fieldTarget = true → unit '.' ∉ value) := by
  simp only [isSemanticIdentityComponent, Bool.and_eq_true, Bool.or_eq_true, Bool.not_eq_true', decide_eq_true_eq,
    List.contains_eq_mem, decide_eq_false_iff_not]
  constructor
  · rintro ⟨⟨⟨⟨hne, htrim⟩, hcolon⟩, hnul⟩, hdot⟩
    exact ⟨⟨hne, htrim, hcolon, hnul⟩, fun h => hdot.resolve_left (by simp [h])⟩
  · rintro ⟨⟨hne, htrim, hcolon, hnul⟩, hdot⟩
    refine ⟨⟨⟨⟨hne, htrim⟩, hcolon⟩, hnul⟩, ?_⟩
    cases fieldTarget with
    | false => exact .inl rfl
    | true => exact .inr (hdot rfl)

theorem assertSemanticIdentityComponent_eq_ok {value context : Text} {fieldTarget : Bool} :
    assertSemanticIdentityComponent value context fieldTarget = .ok () ↔
      isSemanticIdentityComponent value fieldTarget = true := require_eq_ok

/-! ## Kinds -/

theorem mem_SEMANTIC_ENTITY_KINDS (kind : SemanticEntityKind) : kind ∈ SEMANTIC_ENTITY_KINDS := by
  cases kind <;> decide

/-- The first part of an id of this kind. -/
def headText (kind : SemanticEntityKind) : Text := if kind = .scenarioStep then "scenario" else kind.toText

theorem kindText_injective : Function.Injective SemanticEntityKind.toText := by
  have hnodup : (SEMANTIC_ENTITY_KINDS.map SemanticEntityKind.toText).Nodup := by decide
  exact fun a b h => List.inj_on_of_nodup_map hnodup (mem_SEMANTIC_ENTITY_KINDS a) (mem_SEMANTIC_ENTITY_KINDS b) h

theorem kindText_plain (kind : SemanticEntityKind) : unit ':' ∉ kind.toText ∧ 0 ∉ kind.toText := by
  cases kind <;> decide

theorem eq_or_scenario_of_headText {kind kind' : SemanticEntityKind} (h : headText kind = headText kind') :
    kind = kind' ∨ (kind = .scenario ∧ kind' = .scenarioStep) ∨ (kind = .scenarioStep ∧ kind' = .scenario) := by
  have hscenario : Text.ofString "scenario" = SemanticEntityKind.scenario.toText := rfl
  unfold headText at h
  split at h <;> split at h
  · rename_i hkind hkind'
    exact .inl (hkind.trans hkind'.symm)
  · rename_i hkind _
    exact .inr (.inr ⟨hkind, (kindText_injective (hscenario ▸ h)).symm⟩)
  · rename_i _ hkind'
    exact .inr (.inl ⟨kindText_injective (hscenario ▸ h), hkind'⟩)
  · exact .inl (kindText_injective h)

/-! ## Parts -/

theorem joinWith_colon (head : Text) {parts : List Text} (h : parts ≠ []) :
    joinWith ":" (head :: parts) = Text.cat [head, ":"] ++ joinWith ":" parts := by
  obtain ⟨part, parts, rfl⟩ := List.exists_cons_of_ne_nil h
  rw [Text.joinWith_cons_cons]
  simp [Text.cat]

theorem nulFree_joinWith {parts : List Text} (h : ∀ part ∈ parts, 0 ∉ part) : 0 ∉ joinWith ":" parts := by
  intro hmem
  rcases Text.mem_joinWith hmem with hmem | ⟨part, hpart, hmem⟩
  · exact absurd hmem (by decide)
  · exact h part hpart hmem

/-- Parts of a canonical id hold no separator and no null character. -/
def ArePlain (parts : List Text) : Prop := ∀ part ∈ parts, unit ':' ∉ part ∧ 0 ∉ part

theorem splitAt_id (head : Text) {parts : List Text} (hhead : unit ':' ∉ head) (h : ArePlain parts) :
    splitAt (unit ':') (joinWith ":" (head :: parts)) = head :: parts :=
  Text.splitAt_joinWith (List.cons_ne_nil _ _) (List.forall_mem_cons.mpr ⟨hhead, fun part hpart => (h part hpart).1⟩)

theorem isCanonical_of_parts {kind : SemanticEntityKind} {parts : List Text} (hstep : kind ≠ .scenarioStep)
    (hartifact : kind ≠ .artifact) (hplain : ArePlain parts) (hparts : areCanonicalParts kind parts = true) :
    isCanonicalSemanticEntityIdentity (joinWith ":" (kind.toText :: parts)) kind = true := by
  have hne : parts ≠ [] := by
    rintro rfl
    cases kind <;> cases hparts
  have hnul : 0 ∉ joinWith ":" (kind.toText :: parts) :=
    nulFree_joinWith (List.forall_mem_cons.mpr ⟨(kindText_plain kind).2, fun part hpart => (hplain part hpart).2⟩)
  have hbody : (joinWith ":" (kind.toText :: parts)).drop (kind.toText.length + 1) = joinWith ":" parts := by
    rw [joinWith_colon _ hne]
    exact List.drop_left' (by simp [Text.cat, show (Text.ofString ":").length = 1 from rfl])
  have hsplit : splitAt (unit ':') (joinWith ":" parts) = parts :=
    Text.splitAt_joinWith hne fun part hpart => (hplain part hpart).1
  rw [isCanonicalSemanticEntityIdentity, if_neg (by simpa using hnul), if_neg hstep,
    if_neg (not_not_intro (joinWith_colon kind.toText hne ▸ List.prefix_append _ _)), hbody]
  dsimp only
  rw [if_neg hartifact, hsplit, hparts]

/-- An id of a kind begins with the part of that kind; a scenario has two more parts and a step has three. -/
theorem splitAt_of_isCanonical {id : Text} {kind : SemanticEntityKind}
    (h : isCanonicalSemanticEntityIdentity id kind = true) : ∃ rest, splitAt (unit ':') id = headText kind :: rest ∧
      (kind = .scenario → rest.length = 2) ∧ (kind = .scenarioStep → rest.length = 3) := by
  unfold isCanonicalSemanticEntityIdentity at h
  split at h
  · cases h
  · split at h
    · rename_i hkind
      subst hkind
      unfold areStepParts at h
      split at h
      · rename_i head scope scenario step hsplit
        simp only [Bool.and_eq_true, decide_eq_true_eq] at h
        have hhead : head = headText .scenarioStep := h.1.1.1.1
        exact ⟨[scope, scenario, step], hhead ▸ hsplit, nofun, fun _ => rfl⟩
      · cases h
    · rename_i hstep
      split at h
      · cases h
      · rename_i hprefix
        obtain ⟨body, rfl⟩ := not_not.mp hprefix
        have hid : Text.cat [kind.toText, ":"] ++ body = kind.toText ++ unit ':' :: body := by
          simp [Text.cat, show Text.ofString ":" = [unit ':'] from rfl]
        have hdrop : (kind.toText ++ unit ':' :: body).drop (kind.toText.length + 1) = body := by simp
        rw [hid, hdrop] at h
        rw [hid, Text.splitAt_append (kindText_plain kind).1, headText, if_neg hstep]
        refine ⟨_, rfl, fun hkind => ?_, fun hkind => absurd hkind hstep⟩
        subst hkind
        dsimp only at h
        rw [if_neg (by decide)] at h
        unfold areCanonicalParts at h
        split at h <;> simp_all

/-!
## The ids of the constructors

The id of a construction is the parts of its kind and its components between colons. The parts give the components
back, so an id stands for one construction.
-/

/-- No id is canonical for two kinds. -/
theorem kind_eq_of_isCanonical {id : Text} {kind kind' : SemanticEntityKind}
    (h : isCanonicalSemanticEntityIdentity id kind = true) (h' : isCanonicalSemanticEntityIdentity id kind' = true) :
    kind = kind' := by
  obtain ⟨rest, hsplit, hscenario, hstep⟩ := splitAt_of_isCanonical h
  obtain ⟨rest', hsplit', hscenario', hstep'⟩ := splitAt_of_isCanonical h'
  rw [hsplit] at hsplit'
  obtain ⟨hhead, rfl⟩ := List.cons.inj hsplit'
  rcases eq_or_scenario_of_headText hhead with hkind | ⟨hkind, hkind'⟩ | ⟨hkind, hkind'⟩
  · exact hkind
  · exact absurd (hscenario hkind) (by rw [hstep' hkind']; decide)
  · exact absurd (hstep hkind) (by rw [hscenario' hkind']; decide)

/-! ### Components between colons -/

theorem IsComponent.arePlain {value : Text} (h : IsComponent value) : unit ':' ∉ value ∧ 0 ∉ value :=
  ⟨h.colonFree, h.nulFree⟩

theorem isComponent_of_assert {value context : Text} {fieldTarget : Bool}
    (h : assertSemanticIdentityComponent value context fieldTarget = .ok ()) : IsComponent value :=
  (isSemanticIdentityComponent_iff.mp (assertSemanticIdentityComponent_eq_ok.mp h)).1

theorem IsComponent.check {value : Text} (h : IsComponent value) : isSemanticIdentityComponent value false = true :=
  isSemanticIdentityComponent_iff.mpr ⟨h, nofun⟩

theorem isDigestHex_plain {value : Text} (h : isDigestHex value = true) : unit ':' ∉ value ∧ 0 ∉ value := by
  simp only [isDigestHex, Bool.and_eq_true, decide_eq_true_eq, List.all_eq_true] at h
  exact ⟨fun hmem => absurd (h.2 _ hmem) (by decide), fun hmem => absurd (h.2 _ hmem) (by decide)⟩

theorem scoped_eq_ok {kind : SemanticEntityKind} {scope id r : Text} (h : scopedEntityId kind scope id = .ok r) :
    r = joinWith ":" [kind.toText, scope, id] ∧ IsComponent scope ∧ IsComponent id := by
  obtain ⟨_, hscope, h⟩ := bind_eq_ok.mp h
  obtain ⟨_, hid, h⟩ := bind_eq_ok.mp h
  exact ⟨(Except.ok.inj h).symm, isComponent_of_assert hscope, isComponent_of_assert hid⟩

theorem app_eq_ok {id : Option Text} {r : Text} (h : assertAppIdentity id = .ok r) : id = some r ∧ IsComponent r := by
  unfold assertAppIdentity at h
  cases id with
  | none => cases h
  | some id =>
      dsimp only at h
      split at h
      · obtain ⟨_, hid, h⟩ := bind_eq_ok.mp h
        obtain rfl := Except.ok.inj hid
        obtain ⟨_, hcomponent, h⟩ := bind_eq_ok.mp h
        obtain rfl := Except.ok.inj h
        exact ⟨rfl, isComponent_of_assert hcomponent⟩
      · cases h

theorem single_eq_ok {id context r s : Text}
    (h : (do assertSemanticIdentityComponent id context false; return s : Except CodedFailure Text) = .ok r) :
    assertSemanticIdentityComponent id context false = .ok () ∧ r = s := by
  obtain ⟨_, hid, h⟩ := bind_eq_ok.mp h
  exact ⟨hid, (Except.ok.inj h).symm⟩

/-! ### Fields -/

theorem splitAt_fieldTarget {entityId fieldId : Text} (hentity : isSemanticIdentityComponent entityId true = true)
    (hfield : isSemanticIdentityComponent fieldId true = true) :
    splitAt (unit '.') (joinWith "." [entityId, fieldId]) = [entityId, fieldId] := by
  refine Text.splitAt_joinWith (List.cons_ne_nil _ _) (List.forall_mem_cons.mpr ⟨?_, List.forall_mem_singleton.mpr ?_⟩)
  · exact (isSemanticIdentityComponent_iff.mp hentity).2 rfl
  · exact (isSemanticIdentityComponent_iff.mp hfield).2 rfl

theorem plain_fieldTarget {entityId fieldId : Text} (hentity : IsComponent entityId) (hfield : IsComponent fieldId) :
    unit ':' ∉ joinWith "." [entityId, fieldId] ∧ 0 ∉ joinWith "." [entityId, fieldId] := by
  constructor <;> intro hmem <;> rcases Text.mem_joinWith hmem with hdot | ⟨part, hpart, hchar⟩
  · exact absurd hdot (by decide)
  · rcases List.mem_pair.mp hpart with rfl | rfl
    · exact hentity.colonFree hchar
    · exact hfield.colonFree hchar
  · exact absurd hdot (by decide)
  · rcases List.mem_pair.mp hpart with rfl | rfl
    · exact hentity.nulFree hchar
    · exact hfield.nulFree hchar

theorem fieldTarget_of_ok {scope entityId fieldId r : Text} (h : contractFieldId scope entityId fieldId = .ok r) :
    isSemanticIdentityComponent entityId true = true ∧ isSemanticIdentityComponent fieldId true = true := by
  obtain ⟨_, _, h⟩ := bind_eq_ok.mp h
  obtain ⟨_, hentity, h⟩ := bind_eq_ok.mp h
  obtain ⟨_, hfield, _⟩ := bind_eq_ok.mp h
  exact ⟨assertSemanticIdentityComponent_eq_ok.mp hentity, assertSemanticIdentityComponent_eq_ok.mp hfield⟩

/-! ### Artifacts and steps -/

theorem artifact_eq_ok {target r : Text} (h : artifactEntityId target = .ok r) :
    r = joinWith ":" ["artifact", normalizedArtifactTarget target] ∧
      isCanonicalSemanticEntityIdentity r .artifact = true := by
  obtain ⟨_, hassert, h⟩ := bind_eq_ok.mp h
  obtain rfl := Except.ok.inj h
  exact ⟨rfl, require_eq_ok.mp hassert⟩

theorem parts_of_scenario {id : Text} (h : isCanonicalSemanticEntityIdentity id .scenario = true) :
    ∃ scope name, IsComponent scope ∧ IsComponent name ∧ id = joinWith ":" ["scenario", scope, name] := by
  unfold isCanonicalSemanticEntityIdentity at h
  split at h
  · cases h
  rw [if_neg (by decide)] at h
  split at h
  · cases h
  rename_i hprefix
  obtain ⟨body, rfl⟩ := not_not.mp hprefix
  have hbody : (Text.cat [SemanticEntityKind.scenario.toText, ":"] ++ body).drop
      (SemanticEntityKind.scenario.toText.length + 1) = body := rfl
  rw [hbody] at h
  dsimp only at h
  rw [if_neg (by decide)] at h
  have hjoin := Text.joinWith_splitAt (unit ':') body
  generalize splitAt (unit ':') body = parts at h hjoin
  match parts, h with
  | [scope, name], h =>
      obtain ⟨hscope, hname⟩ := Bool.and_eq_true_iff.mp h
      refine ⟨scope, name, (isSemanticIdentityComponent_iff.mp hscope).1, (isSemanticIdentityComponent_iff.mp hname).1, ?_⟩
      rw [← hjoin, joinWith_colon _ (List.cons_ne_nil _ _)]
      rfl

/-- The parts of the id of a step: the suffix ends the name of the scenario. -/
theorem step_eq_ok {scenarioId stepId r : Text} (h : scenarioStepEntityId scenarioId stepId = .ok r) :
    ∃ scope name, IsComponent scope ∧ IsComponent name ∧ IsComponent stepId ∧
      scenarioId = joinWith ":" ["scenario", scope, name] ∧
      r = joinWith ":" ["scenario", scope, name ++ stepSuffix, stepId] := by
  obtain ⟨_, hscenario, h⟩ := bind_eq_ok.mp h
  obtain ⟨_, hstep, h⟩ := bind_eq_ok.mp h
  obtain ⟨scope, name, hscope, hname, rfl⟩ := parts_of_scenario (require_eq_ok.mp hscenario)
  refine ⟨scope, name, hscope, hname, isComponent_of_assert hstep, rfl, (Except.ok.inj h).symm.trans ?_⟩
  simp [Text.cat, joinWith]

theorem splitAt_step {scope name stepId : Text} (hscope : IsComponent scope) (hname : IsComponent name)
    (hstep : IsComponent stepId) :
    splitAt (unit ':') (joinWith ":" ["scenario", scope, name ++ stepSuffix, stepId]) =
      [Text.ofString "scenario", scope, name ++ stepSuffix, stepId] := by
  refine Text.splitAt_joinWith (List.cons_ne_nil _ _) ?_
  have hsuffix : unit ':' ∉ name ++ stepSuffix := by
    rw [List.mem_append]
    exact not_or_intro hname.colonFree (by decide)
  exact List.forall_mem_cons.mpr ⟨by decide, List.forall_mem_cons.mpr ⟨hscope.colonFree,
    List.forall_mem_cons.mpr ⟨hsuffix, List.forall_mem_singleton.mpr hstep.colonFree⟩⟩⟩

theorem isCanonical_step {scenarioId stepId r : Text} (h : scenarioStepEntityId scenarioId stepId = .ok r) :
    isCanonicalSemanticEntityIdentity r .scenarioStep = true := by
  obtain ⟨scope, name, hscope, hname, hstep, rfl, rfl⟩ := step_eq_ok h
  have hnul : 0 ∉ joinWith ":" ["scenario", scope, name ++ stepSuffix, stepId] := by
    refine nulFree_joinWith (List.forall_mem_cons.mpr ⟨by decide, List.forall_mem_cons.mpr ⟨hscope.nulFree,
      List.forall_mem_cons.mpr ⟨?_, List.forall_mem_singleton.mpr hstep.nulFree⟩⟩⟩)
    rw [List.mem_append]
    exact not_or_intro hname.nulFree (by decide)
  rw [isCanonicalSemanticEntityIdentity, if_neg (by simpa using hnul), if_pos rfl, splitAt_step hscope hname hstep]
  simp [areStepParts, hscope.check, hname.check, hstep.check]

/-! ### Constructions -/

section Hash

variable [Sha256]

theorem isDigestHex_digestHex (value : Text) : isDigestHex (digestHex value) = true := by
  have h := (Sha256.rawSha256 value).property
  simp only [isDigest, Bool.and_eq_true] at h
  exact h.2

namespace EntityConstruction

/-- The parts of the id after the part of its kind; a step has the parts of its scenario first. -/
def parts : EntityConstruction → List Text
  | .field scope entityId fieldId => [scope, joinWith "." [entityId, fieldId]]
  | .responsibilityBinding binding => [binding.scope, binding.responsibilityId, digestHex binding.declaration]
  | c => c.components

/-- What a construction of a kind other than artifacts and steps says: its id and the parts it admits. -/
structure Constructs (c : EntityConstruction) (id : Text) : Prop where
  eq_join : id = joinWith ":" (c.kind.toText :: c.parts)
  plain : ArePlain c.parts
  admitted : areCanonicalParts c.kind c.parts = true

theorem Constructs.of_scoped {c : EntityConstruction} {scope id r : Text} (h : scopedEntityId c.kind scope id = .ok r)
    (hparts : c.parts = [scope, id])
    (hadmits : IsComponent scope → IsComponent id → areCanonicalParts c.kind [scope, id] = true) : Constructs c r := by
  obtain ⟨hr, hscope, hid⟩ := scoped_eq_ok h
  refine ⟨hparts ▸ hr, ?_, hparts ▸ hadmits hscope hid⟩
  rw [hparts]
  exact List.forall_mem_cons.mpr ⟨hscope.arePlain, List.forall_mem_singleton.mpr hid.arePlain⟩

theorem Constructs.of_single {c : EntityConstruction} {id context r : Text}
    (h : assertSemanticIdentityComponent id context false = .ok () ∧ r = joinWith ":" [c.kind.toText, id])
    (hparts : c.parts = [id]) (hadmits : IsComponent id → areCanonicalParts c.kind [id] = true) : Constructs c r := by
  have hid := isComponent_of_assert h.1
  refine ⟨hparts ▸ h.2, ?_, hparts ▸ hadmits hid⟩
  rw [hparts]
  exact List.forall_mem_singleton.mpr hid.arePlain

theorem constructs_of_construct {c : EntityConstruction} {r : Text} (hartifact : c.kind ≠ .artifact)
    (hstep : c.kind ≠ .scenarioStep) (h : c.construct = .ok r) : Constructs c r := by
  cases c with
  | app id =>
      obtain ⟨id', hid, heq⟩ := bind_eq_ok.mp h
      obtain ⟨rfl, hcomponent⟩ := app_eq_ok hid
      obtain rfl := Except.ok.inj heq
      exact ⟨rfl, List.forall_mem_singleton.mpr hcomponent.arePlain, hcomponent.check⟩
  | block id | acceptance id | verificationPolicy id | capability id =>
      exact .of_single (single_eq_ok h) rfl IsComponent.check
  | port blockId direction id =>
      obtain ⟨_, hblock, h⟩ := bind_eq_ok.mp h
      obtain ⟨_, hid, h⟩ := bind_eq_ok.mp h
      obtain ⟨_, hdirection, h⟩ := bind_eq_ok.mp h
      have hblock := isComponent_of_assert hblock
      have hid := isComponent_of_assert hid
      have hdirection := require_eq_ok.mp hdirection
      have hplain : unit ':' ∉ direction ∧ 0 ∉ direction := by rcases hdirection with rfl | rfl <;> decide
      refine ⟨(Except.ok.inj h).symm, ?_, ?_⟩
      · exact List.forall_mem_cons.mpr ⟨hblock.arePlain, List.forall_mem_cons.mpr
          ⟨hplain, List.forall_mem_singleton.mpr hid.arePlain⟩⟩
      · simp [parts, components, kind, areCanonicalParts, hblock.check, hid.check, hdirection]
  | entity scope id =>
      obtain ⟨_, hid, h⟩ := bind_eq_ok.mp h
      have hid := assertSemanticIdentityComponent_eq_ok.mp hid
      exact .of_scoped h rfl fun hscope _ => Bool.and_eq_true_iff.mpr ⟨hscope.check, hid⟩
  | field scope entityId fieldId =>
      obtain ⟨_, hscope, h⟩ := bind_eq_ok.mp h
      obtain ⟨_, hentity, h⟩ := bind_eq_ok.mp h
      obtain ⟨_, hfield, h⟩ := bind_eq_ok.mp h
      obtain rfl := Except.ok.inj h
      have hscope := isComponent_of_assert hscope
      have hentity := assertSemanticIdentityComponent_eq_ok.mp hentity
      have hfield := assertSemanticIdentityComponent_eq_ok.mp hfield
      refine ⟨rfl, List.forall_mem_cons.mpr ⟨hscope.arePlain, List.forall_mem_singleton.mpr ?_⟩, ?_⟩
      · exact plain_fieldTarget (isSemanticIdentityComponent_iff.mp hentity).1 (isSemanticIdentityComponent_iff.mp hfield).1
      · have htarget : isFieldTarget (joinWith "." [entityId, fieldId]) = true := by
          rw [isFieldTarget, splitAt_fieldTarget hentity hfield]
          exact Bool.and_eq_true_iff.mpr ⟨hentity, hfield⟩
        exact Bool.and_eq_true_iff.mpr ⟨hscope.check, htarget⟩
  | responsibility scope id | operation scope id | state scope id | event scope id | policy scope id
  | permission scope id | effect scope id | scenario scope id =>
      exact .of_scoped h rfl fun hscope hid => Bool.and_eq_true_iff.mpr ⟨hscope.check, hid.check⟩
  | generator blockId generatorId =>
      obtain ⟨_, hblock, h⟩ := bind_eq_ok.mp h
      obtain ⟨_, hgenerator, h⟩ := bind_eq_ok.mp h
      have hblock := isComponent_of_assert hblock
      have hgenerator := isComponent_of_assert hgenerator
      exact ⟨(Except.ok.inj h).symm, List.forall_mem_cons.mpr
        ⟨hblock.arePlain, List.forall_mem_singleton.mpr hgenerator.arePlain⟩,
        Bool.and_eq_true_iff.mpr ⟨hblock.check, hgenerator.check⟩⟩
  | responsibilityBinding binding =>
      obtain ⟨_, hscope, h⟩ := bind_eq_ok.mp h
      obtain ⟨_, hresponsibility, h⟩ := bind_eq_ok.mp h
      obtain ⟨_, _, h⟩ := bind_eq_ok.mp h
      obtain ⟨_, _, h⟩ := bind_eq_ok.mp h
      have hscope := isComponent_of_assert hscope
      have hresponsibility := isComponent_of_assert hresponsibility
      have hdigest := isDigestHex_digestHex binding.declaration
      refine ⟨(Except.ok.inj h).symm, ?_, ?_⟩
      · exact List.forall_mem_cons.mpr ⟨hscope.arePlain, List.forall_mem_cons.mpr
          ⟨hresponsibility.arePlain, List.forall_mem_singleton.mpr (isDigestHex_plain hdigest)⟩⟩
      · simp [parts, kind, areCanonicalParts, hscope.check, hresponsibility.check, hdigest]
  | artifact target => exact absurd rfl hartifact
  | scenarioStep scenarioId stepId => exact absurd rfl hstep

theorem isCanonical_of_construct {c : EntityConstruction} {r : Text} (h : c.construct = .ok r) :
    isCanonicalSemanticEntityIdentity r c.kind = true := by
  by_cases hartifact : c.kind = .artifact
  · cases c <;> try cases hartifact
    exact (artifact_eq_ok h).2
  by_cases hstep : c.kind = .scenarioStep
  · cases c <;> try cases hstep
    exact isCanonical_step h
  have hconstructs := constructs_of_construct hartifact hstep h
  rw [hconstructs.eq_join]
  exact isCanonical_of_parts hstep hartifact hconstructs.plain hconstructs.admitted

/-! ### Distinct components -/

/-- The hash tells the declarations of two bindings apart. -/
def DigestsApart (c c' : EntityConstruction) : Prop :=
  ∀ binding binding', c = .responsibilityBinding binding → c' = .responsibilityBinding binding' →
    digestHex binding.declaration = digestHex binding'.declaration → binding.declaration = binding'.declaration

omit [Sha256] in
theorem declaration_injective {binding binding' : ResponsibilityBinding}
    (h : binding.declaration = binding'.declaration) :
    binding.targetKind = binding'.targetKind ∧ binding.targetId = binding'.targetId ∧
      normalizedArtifactTarget binding.declarationPath = normalizedArtifactTarget binding'.declarationPath ∧
      binding.declarationExportName = binding'.declarationExportName := by
  have hvalue := Json.render_injective (by simp [Json.Exact, Json.ExactMembers]) (by simp [Json.Exact, Json.ExactMembers]) h
  simpa using hvalue

theorem parts_eq_components {c : EntityConstruction} (hfield : c.kind ≠ .field)
    (hbinding : c.kind ≠ .responsibilityBinding) : c.parts = c.components := by
  unfold parts
  split
  · exact absurd rfl hfield
  · exact absurd rfl hbinding
  · rfl

theorem components_field {scope entityId fieldId scope' entityId' fieldId' r : Text}
    (h : contractFieldId scope entityId fieldId = .ok r) (h' : contractFieldId scope' entityId' fieldId' = .ok r)
    (hparts : (field scope entityId fieldId).parts = (field scope' entityId' fieldId').parts) :
    [scope, entityId, fieldId] = [scope', entityId', fieldId'] := by
  obtain ⟨hentity, hfield⟩ := fieldTarget_of_ok h
  obtain ⟨hentity', hfield'⟩ := fieldTarget_of_ok h'
  obtain ⟨rfl, htarget⟩ := List.cons.inj hparts
  have hsplit := congrArg (splitAt (unit '.')) (List.cons.inj htarget).1
  rw [splitAt_fieldTarget hentity hfield, splitAt_fieldTarget hentity' hfield'] at hsplit
  rw [hsplit]

theorem components_binding {binding binding' : ResponsibilityBinding}
    (hdigest : DigestsApart (.responsibilityBinding binding) (.responsibilityBinding binding'))
    (hparts : (responsibilityBinding binding).parts = (responsibilityBinding binding').parts) :
    (responsibilityBinding binding).components = (responsibilityBinding binding').components := by
  obtain ⟨hscope, hparts⟩ := List.cons.inj hparts
  obtain ⟨hresponsibility, hparts⟩ := List.cons.inj hparts
  have hdeclaration := hdigest binding binding' rfl rfl (List.cons.inj hparts).1
  obtain ⟨hkind, htarget, hpath, hname⟩ := declaration_injective hdeclaration
  simp only [components, hscope, hresponsibility, hkind, htarget, hpath, hname]

/-- The parts after the part of the kind give the components back. -/
theorem components_eq_of_parts {c c' : EntityConstruction} {r : Text} (hkind : c.kind = c'.kind)
    (h : c.construct = .ok r) (h' : c'.construct = .ok r) (hdigest : DigestsApart c c')
    (hparts : c.parts = c'.parts) : c.components = c'.components := by
  by_cases hfield : c.kind = .field
  · cases c <;> try cases hfield
    cases c' <;> try cases hkind
    exact components_field h h' hparts
  by_cases hbinding : c.kind = .responsibilityBinding
  · cases c <;> try cases hbinding
    cases c' <;> try cases hkind
    exact components_binding hdigest hparts
  rwa [← parts_eq_components hfield hbinding, ← parts_eq_components (hkind ▸ hfield) (hkind ▸ hbinding)]

theorem parts_eq_of_construct {c c' : EntityConstruction} {r : Text} (hkind : c.kind = c'.kind)
    (hstep : c.kind ≠ .scenarioStep) (h : c.construct = .ok r) (h' : c'.construct = .ok r) : c.parts = c'.parts := by
  by_cases hartifact : c.kind = .artifact
  · cases c <;> try cases hartifact
    cases c' <;> try cases hkind
    have heq := (artifact_eq_ok h).1.symm.trans (artifact_eq_ok h').1
    rw [joinWith_colon _ (List.cons_ne_nil _ _), joinWith_colon _ (List.cons_ne_nil _ _)] at heq
    exact congrArg (fun target => [target]) (List.append_cancel_left heq)
  have hconstructs := constructs_of_construct hartifact hstep h
  have hconstructs' := constructs_of_construct (hkind ▸ hartifact) (hkind ▸ hstep) h'
  have hsplit := congrArg (splitAt (unit ':')) (hconstructs.eq_join.symm.trans hconstructs'.eq_join)
  rw [splitAt_id _ (kindText_plain _).1 hconstructs.plain, splitAt_id _ (kindText_plain _).1 hconstructs'.plain] at hsplit
  exact (List.cons.inj hsplit).2

omit [Sha256] in
theorem components_step {scenarioId stepId scenarioId' stepId' r : Text}
    (h : scenarioStepEntityId scenarioId stepId = .ok r) (h' : scenarioStepEntityId scenarioId' stepId' = .ok r) :
    [scenarioId, stepId] = [scenarioId', stepId'] := by
  obtain ⟨scope, name, hscope, hname, hstep, rfl, rfl⟩ := step_eq_ok h
  obtain ⟨scope', name', hscope', hname', hstep', rfl, heq⟩ := step_eq_ok h'
  have hsplit := congrArg (splitAt (unit ':')) heq
  rw [splitAt_step hscope hname hstep, splitAt_step hscope' hname' hstep'] at hsplit
  simp only [List.cons.injEq, List.append_cancel_right_eq, and_true, true_and] at hsplit
  obtain ⟨rfl, rfl, rfl⟩ := hsplit
  rfl

/-- Two constructions with one id are of one kind and have the same components. -/
theorem components_eq_of_construct {c c' : EntityConstruction} {r : Text} (h : c.construct = .ok r)
    (h' : c'.construct = .ok r) (hdigest : DigestsApart c c') : c.kind = c'.kind ∧ c.components = c'.components := by
  have hkind := kind_eq_of_isCanonical (isCanonical_of_construct h) (isCanonical_of_construct h')
  refine ⟨hkind, ?_⟩
  by_cases hstep : c.kind = .scenarioStep
  · cases c <;> try cases hstep
    cases c' <;> try cases hkind
    exact components_step h h'
  · exact components_eq_of_parts hkind h h' hdigest (parts_eq_of_construct hkind hstep h h')

end EntityConstruction

end Hash

end SecPlatform.Compiler.IR
