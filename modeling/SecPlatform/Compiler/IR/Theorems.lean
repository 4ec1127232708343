import SecPlatform.Compiler.IR.Lemmas.Identity
import SecPlatform.Compiler.IR.Lemmas.FactIdentity
import SecPlatform.Compiler.IR.Lemmas.FactStore

/-!
# Identities are unambiguous

An id is canonical for one kind only, and a constructor gives the ids of its own kind. Two constructions share an id only
when they share their kind and their components, a path being the same as its normal form. Two facts share an id only when
they share subject, predicate and normal object.
-/

namespace SecPlatform.Compiler.IR

open Contracts Semantics

/-- The id of a graph is canonical for no kind. -/
theorem isCanonical_engineeringGraphId {app : Option Text} {id : Text} (h : engineeringGraphId app = .ok id)
    (kind : SemanticEntityKind) : isCanonicalSemanticEntityIdentity id kind = false := by
  obtain ⟨name, hname, h⟩ := bind_eq_ok.mp h
  obtain rfl := Except.ok.inj h
  refine Bool.eq_false_iff.mpr fun hcanonical => ?_
  obtain ⟨rest, hsplit, _⟩ := splitAt_of_isCanonical hcanonical
  have hparts := splitAt_id "engineering-ir" (by decide)
    (List.forall_mem_singleton.mpr (app_eq_ok hname).2.arePlain)
  have hhead : headText kind = Text.ofString "engineering-ir" := (List.cons.inj (hsplit.symm.trans hparts)).1
  cases kind <;> exact absurd hhead (by decide)

section Hash

variable [Sha256]

theorem entityIdentity_unambiguous :
    (∀ id kind kind', isCanonicalSemanticEntityIdentity id kind = true →
      isCanonicalSemanticEntityIdentity id kind' = true → kind = kind') ∧
    (∀ (c : EntityConstruction) id kind, c.construct = .ok id →
      (isCanonicalSemanticEntityIdentity id kind = true ↔ kind = c.kind)) ∧
    (∀ app id kind, engineeringGraphId app = .ok id → isCanonicalSemanticEntityIdentity id kind = false) ∧
    (∀ (c c' : EntityConstruction) id, c.construct = .ok id → c'.construct = .ok id → c.DigestsApart c' →
      c.kind = c'.kind ∧ c.components = c'.components) ∧
    ∀ subject subject' predicate predicate' object object' id, factIdentity subject predicate object = .ok id →
      factIdentity subject' predicate' object' = .ok id →
      subject = subject' ∧ predicate = predicate' ∧ normalizedObject object = normalizedObject object' := by
  refine ⟨fun _ _ _ => kind_eq_of_isCanonical, fun c id kind h => ?_, fun _ _ kind h => isCanonical_engineeringGraphId h kind,
    fun _ _ _ => EntityConstruction.components_eq_of_construct, fun _ _ _ _ _ _ _ => factIdentity_injective⟩
  have hown := EntityConstruction.isCanonical_of_construct h
  exact ⟨fun hkind => kind_eq_of_isCanonical hkind hown, fun hkind => hkind ▸ hown⟩

end Hash

/-- A step of a scenario is no scenario. -/
theorem entityIdentity_unambiguous_step :
    let _ : Sha256 := ⟨fun _ => ⟨Text.ofString "sha256:" ++ List.replicate 64 (unit '0'), by decide⟩⟩
    let step := EntityConstruction.scenarioStep "scenario:orders:pay" "ship"
    step.construct = .ok "scenario:orders:pay#step:ship" ∧
      ¬isCanonicalSemanticEntityIdentity "scenario:orders:pay#step:ship" .scenario = true := by
  intro hash step
  have h : step.construct = .ok "scenario:orders:pay#step:ship" := by decide
  exact ⟨h, fun hscenario => nomatch (entityIdentity_unambiguous.2.1 step _ .scenario h).mp hscenario⟩

/-- Two spellings of a path are one target. -/
theorem artifactEntityId_separator :
    artifactEntityId "a\\b" = .ok "artifact:a/b" ∧ artifactEntityId "a/b" = .ok "artifact:a/b" ∧
      Text.ofString "a\\b" ≠ "a/b" := by
  refine ⟨?_, ?_, ?_⟩ <;> decide

/-!
## The order of adding facts does not matter

Two orders of adding the same inputs both fail, or give lists of facts with the same text. Adding an input again changes
nothing.
-/

open Json (render)

/-! ### Texts -/

/-- The text of a fact as the graph is written. -/
def StoredFact.text (f : StoredFact) : Text := render f.toValue

theorem render_num_of_strictEquals {n m : JsNumber} (h : n.strictEquals m = true) :
    render (.num n : Value) = render (.num m : Value) := by
  obtain ⟨_, rfl | ⟨a, b, rfl, rfl⟩⟩ := strictEquals_iff.mp h
  · rfl
  · rfl

theorem Gathers.render_eq {sources sources' : List StoredAssertion} {a a' : StoredAssertion}
    (h : Gathers sources a) (h' : Gathers sources' a') (hid : a.id = a'.id)
    (hmem : ∀ b, b ∈ sources ↔ b ∈ sources') (hfresh : ∀ b ∈ sources, b.validFromRevision = "build") :
    render a.toValue = render a'.toValue := by
  obtain ⟨b, hb, hba, ha⟩ := h.source
  obtain ⟨b', hb', _, ha'⟩ := h'.source
  have hclaim := h'.claim b ((hmem b).mp hb) (hba.trans hid)
  have hevidence : a.evidence = a'.evidence := by
    refine h.sorted.eq h'.sorted fun e => (h.evidence e).trans (.trans ?_ (h'.evidence e).symm)
    simp only [hmem, hid]
  have hauthority : a.authority = a'.authority := (congrArg StoredAssertion.authority ha).trans hclaim.authority
  have hconfidence : a.confidence = b.confidence := by rw [ha]
  have hprovenance : a.provenance = b.provenance := by rw [ha]
  have hvalid : a.validFromRevision = a'.validFromRevision := by
    rw [ha, ha', hfresh b hb, hfresh b' ((hmem b').mpr hb')]
  refine render_obj_congr ?_
  simp only [List.map_cons, List.map_nil, Prod.map_apply, id_eq, hid, hauthority, hevidence, hvalid, hconfidence,
    hprovenance, render_num_of_strictEquals hclaim.confidence]
  rw [show render (.arr (b.provenance.map MetadataRecord.toValue)) =
    render (.arr (a'.provenance.map MetadataRecord.toValue)) from hclaim.provenance]

theorem render_object_eq {o o' : SemanticFactObject}
    (h : normalizedObject (normalizeFactObject o) = normalizedObject (normalizeFactObject o')) :
    render (normalizeFactObject o).toValue = render (normalizeFactObject o').toValue := by
  cases o with
  | entity entityId =>
      cases o' with
      | entity entityId' => rw [normalizeFactObject, normalizeFactObject, Sum.inl.inj h]
      | value content' => cases h
  | value content =>
      cases o' with
      | entity entityId' => cases h
      | value content' =>
          have hcanonical : canonical content.val = canonical content'.val := by
            rw [← canonical_normalizeSemanticValue content.val, ← canonical_normalizeSemanticValue content'.val]
            exact Sum.inr.inj h
          have hrender : render (normalizeSemanticValue content.val) = render (normalizeSemanticValue content'.val) := by
            rw [render_normalizeSemanticValue, render_normalizeSemanticValue, hcanonical]
          refine render_obj_congr ?_
          simp only [List.map_cons, List.map_nil, Prod.map_apply, hrender]

/-! ### Facts -/

theorem identityOf_injective {subject subject' : Text} {predicate predicate' : SemanticPredicate}
    {object object' : SemanticFactObject} {id : Text} (h : identityOf subject predicate object = .ok id)
    (h' : identityOf subject' predicate' object' = .ok id) :
    subject = subject' ∧ predicate = predicate' ∧ normalizedObject object = normalizedObject object' :=
  factIdentity_injective (mapError_eq_ok.mp h) (mapError_eq_ok.mp h')

theorem mem_sourcesOf_congr {fs gs : List StoredFact} (hmem : ∀ f, f ∈ fs ↔ f ∈ gs) (id : Text) (b : StoredAssertion) :
    b ∈ sourcesOf fs id ↔ b ∈ sourcesOf gs id := by
  simp only [mem_sourcesOf, hmem]

theorem GathersFact.gathers {fs : List StoredFact} {f : StoredFact} (h : GathersFact fs f) {a : StoredAssertion}
    (ha : a ∈ f.assertions) : Gathers (sourcesOf fs f.id) a :=
  (h.assertions.keyed a.id a ((get?_assertionMap h.sorted).mpr ⟨ha, rfl⟩)).2

theorem GathersFact.exists_assertion {fs : List StoredFact} {f : StoredFact} (h : GathersFact fs f)
    {b : StoredAssertion} (hb : b ∈ sourcesOf fs f.id) : ∃ a ∈ f.assertions, a.id = b.id := by
  obtain ⟨a, ha⟩ := h.assertions.covers b hb
  exact ⟨a, (get?_assertionMap h.sorted).mp ha⟩

theorem GathersFact.mem_ids {fs gs : List StoredFact} {f g : StoredFact} (hf : GathersFact fs f)
    (hg : GathersFact gs g) (hid : f.id = g.id) (hmem : ∀ k ∈ fs, k ∈ gs) {id : Text}
    (h : id ∈ f.assertions.map StoredAssertion.id) : id ∈ g.assertions.map StoredAssertion.id := by
  obtain ⟨a, ha, rfl⟩ := List.mem_map.mp h
  obtain ⟨b, hb, hba, _⟩ := (hf.gathers ha).source
  obtain ⟨k, hk, hkid, hbk⟩ := mem_sourcesOf.mp hb
  obtain ⟨a', ha', hab⟩ := hg.exists_assertion (mem_sourcesOf.mpr ⟨k, hmem k hk, hkid.trans hid, hbk⟩)
  exact List.mem_map.mpr ⟨a', ha', hab.trans hba⟩

theorem fresh_of_mem_sourcesOf {fs : List StoredFact} (hbuilt : ∀ k ∈ fs, IsBuilt k) {id : Text} {b : StoredAssertion}
    (hb : b ∈ sourcesOf fs id) : b.validFromRevision = "build" := by
  obtain ⟨k, hk, _, hbk⟩ := mem_sourcesOf.mp hb
  obtain ⟨c, hc, hclaim⟩ := (hbuilt k hk).claim
  rw [hc] at hbk
  exact List.mem_singleton.mp hbk ▸ hclaim.fresh

theorem GathersFact.map_render_assertions {fs gs : List StoredFact} {f g : StoredFact} (hf : GathersFact fs f)
    (hg : GathersFact gs g) (hid : f.id = g.id) (hmem : ∀ k, k ∈ fs ↔ k ∈ gs) (hbuilt : ∀ k ∈ fs, IsBuilt k) :
    (f.assertions.map StoredAssertion.toValue).map render = (g.assertions.map StoredAssertion.toValue).map render := by
  have hids := map_eq_map_of_strict hf.sorted hg.sorted fun id =>
    ⟨hf.mem_ids hg hid fun k => (hmem k).mp, hg.mem_ids hf hid.symm fun k => (hmem k).mpr⟩
  rw [List.map_map, List.map_map, map_eq_map_iff_forall₂]
  refine forall₂_imp_of_mem (map_eq_map_iff_forall₂.mp hids) fun a ha a' ha' haa => ?_
  have hsources (b : StoredAssertion) : b ∈ sourcesOf fs f.id ↔ b ∈ sourcesOf gs g.id :=
    hid ▸ mem_sourcesOf_congr hmem f.id b
  exact (hf.gathers ha).render_eq (hg.gathers ha') haa hsources fun b hb => fresh_of_mem_sourcesOf hbuilt hb

theorem GathersFact.text_eq {fs gs : List StoredFact} {f g : StoredFact} (hf : GathersFact fs f)
    (hg : GathersFact gs g) (hid : f.id = g.id) (hmem : ∀ k, k ∈ fs ↔ k ∈ gs) (hbuilt : ∀ k ∈ fs, IsBuilt k) :
    f.text = g.text := by
  obtain ⟨k, hk, hkid, hfk⟩ := hf.source
  obtain ⟨l, hl, _, hgl⟩ := hg.source
  obtain ⟨identity, hidentity⟩ := (hbuilt k hk).identity
  have hkg := hg.identity k ((hmem k).mp hk) (hkid.trans hid)
  have hkf := hf.identity k hk hkid
  obtain ⟨hsubject, hpredicate, hobject⟩ := identityOf_injective (hkf ▸ hidentity) (hkg ▸ hidentity)
  obtain ⟨o, ho⟩ := (hbuilt k hk).object
  obtain ⟨o', ho'⟩ := (hbuilt l ((hmem l).mpr hl)).object
  have hfo : f.object = normalizeFactObject o := (congrArg StoredFact.object hfk).trans ho
  have hgo : g.object = normalizeFactObject o' := (congrArg StoredFact.object hgl).trans ho'
  have hobject : render f.object.toValue = render g.object.toValue := by
    rw [hfo, hgo] at hobject ⊢
    exact render_object_eq hobject
  refine render_obj_congr ?_
  simp only [List.map_cons, List.map_nil, Prod.map_apply, hid, hsubject, hpredicate, hobject]
  rw [render_arr_congr (hf.map_render_assertions hg hid hmem hbuilt)]

/-! ### Lists of facts -/

theorem GathersFacts.map_text {fs gs : List StoredFact} {facts facts' : FactStore} (h : GathersFacts fs facts)
    (h' : GathersFacts gs facts') (hmem : ∀ k, k ∈ fs ↔ k ∈ gs) :
    (sortedFacts facts).map StoredFact.text = (sortedFacts facts').map StoredFact.text := by
  have hsub {fs gs : List StoredFact} {facts facts' : FactStore} (h : GathersFacts fs facts)
      (h' : GathersFacts gs facts') (hmem : ∀ k ∈ fs, k ∈ gs) {id : Text}
      (hid : id ∈ (sortedFacts facts).map StoredFact.id) : id ∈ (sortedFacts facts').map StoredFact.id := by
    obtain ⟨f, hf, rfl⟩ := List.mem_map.mp hid
    obtain ⟨key, hkey⟩ := OrderedMap.mem_values.mp (mem_sortBy.mp hf)
    obtain ⟨k, hk, hkid, _⟩ := (h.keyed key f hkey).2.source
    obtain ⟨g, hg⟩ := h'.covers k (hmem k hk)
    exact List.mem_map.mpr ⟨g, mem_sortBy.mpr (OrderedMap.mem_values.mpr ⟨_, hg⟩), (h'.keyed _ g hg).1.trans hkid⟩
  have hids := map_eq_map_of_strict h.sorted_values h'.sorted_values fun id =>
    ⟨hsub h h' fun k => (hmem k).mp, hsub h' h fun k => (hmem k).mpr⟩
  refine map_eq_map_iff_forall₂.mpr (forall₂_imp_of_mem (map_eq_map_iff_forall₂.mp hids) fun f hf g hg hid => ?_)
  obtain ⟨key, hkey⟩ := OrderedMap.mem_values.mp (mem_sortBy.mp hf)
  obtain ⟨key', hkey'⟩ := OrderedMap.mem_values.mp (mem_sortBy.mp hg)
  exact (h.keyed key f hkey).2.text_eq (h'.keyed key' g hkey').2 hid hmem h.built

/-! ### Adding again -/

theorem mergeAssertion_known {sources : List StoredAssertion} {a b m : StoredAssertion} (h : Gathers sources a)
    (hb : b ∈ sources) (hid : a.id = b.id) (hm : mergeAssertion a b = .ok m) : m = a := by
  obtain ⟨_, _, hmerged, hsorted, hevidence⟩ := mergeAssertion_eq_ok hm
  have heq : m.evidence = a.evidence := by
    refine hsorted.eq h.sorted fun e => (hevidence e).trans (or_iff_left_of_imp fun he => ?_)
    exact (h.evidence e).mpr ⟨b, hb, hid.symm, he⟩
  rw [hmerged, heq]

theorem GathersFact.append_known {fs : List StoredFact} {f g merged : StoredFact} (h : GathersFact fs f) (hg : IsBuilt g)
    (hmem : g ∈ fs) (hid : f.id = g.id) (happend : appendFactAssertions f g = .ok merged) : merged = f := by
  obtain ⟨b, hb, hclaim⟩ := hg.claim
  obtain ⟨_, _, happend⟩ := bind_eq_ok.mp happend
  obtain ⟨_, _, happend⟩ := bind_eq_ok.mp happend
  obtain ⟨_, _, happend⟩ := bind_eq_ok.mp happend
  obtain ⟨m, hfold, happend⟩ := bind_eq_ok.mp happend
  obtain rfl := Except.ok.inj happend
  rw [hb] at hfold
  obtain ⟨m', hplace, hfold⟩ := bind_eq_ok.mp hfold
  obtain rfl := Except.ok.inj hfold
  have hsource : b ∈ sourcesOf fs f.id := mem_sourcesOf.mpr ⟨g, hmem, hid.symm, hb ▸ List.mem_singleton_self b⟩
  obtain ⟨a, ha⟩ := h.assertions.covers b hsource
  obtain ⟨haid, hgathers⟩ := h.assertions.keyed _ _ ha
  change placeAssertion (assertionMap f) b = .ok m' at hplace
  rw [placeAssertion, ha] at hplace
  obtain ⟨a', hmerge, hplace⟩ := bind_eq_ok.mp hplace
  obtain rfl := Except.ok.inj hplace
  rw [mergeAssertion_known hgathers hsource haid hmerge, OrderedMap.set_of_get? ha]
  have hperm : (sortBy StoredAssertion.id (assertionMap f).values).Perm f.assertions := by
    refine (List.perm_ext_iff_of_nodup ?_ ?_).mpr fun c => ?_
    · exact (h.assertions.sorted_values).imp fun hlt heq => absurd (congrArg StoredAssertion.id heq) (ne_of_lt hlt)
    · exact h.sorted.imp fun hlt heq => absurd (congrArg StoredAssertion.id heq) (ne_of_lt hlt)
    · rw [mem_sortBy, OrderedMap.mem_values]
      exact ⟨fun ⟨key, hkey⟩ => ((get?_assertionMap h.sorted).mp hkey).1,
        fun hc => ⟨c.id, (get?_assertionMap h.sorted).mpr ⟨hc, rfl⟩⟩⟩
  have heq := hperm.eq_of_pairwise (fun c d _ _ hcd hdc => absurd (hcd.trans hdc) (lt_irrefl _))
    h.assertions.sorted_values h.sorted
  rw [heq]

section Hash

variable [Sha256]

theorem agreeInputs_self {x : FactInput} (h : ∀ e ∈ x.evidenceOrNone, e.metadataWireFields ≠ none) : AgreeInputs x x := by
  intro f g hf hg _
  obtain rfl := Except.ok.inj (hf.symm.trans hg)
  obtain ⟨provenance, evidence, _, hevidence, _, _, _, hassertions⟩ := buildFact_eq_ok hf
  obtain ⟨_, hsorted, hmem⟩ := normalize_eq_ok hevidence
  refine ⟨rfl, fun a ha b hb _ => ?_⟩
  obtain ⟨c, hc, hclaim⟩ := (isBuilt_of_buildFact hf).claim
  have hcevidence : c.evidence = evidence := by
    rw [hassertions] at hc
    exact (congrArg StoredAssertion.evidence (List.cons.inj hc).1).symm
  rw [hc] at ha hb
  obtain rfl := List.mem_singleton.mp ha
  obtain rfl := List.mem_singleton.mp hb
  refine ⟨hclaim.same, fun e he e' he' hkey => ?_⟩
  rw [hcevidence] at he he'
  have hnodup : (evidence.map evidenceKey).Nodup := List.pairwise_map.mpr (List.Pairwise.imp ne_of_lt hsorted)
  have heq := List.inj_on_of_nodup_map hnodup he he' hkey
  obtain ⟨data, hdata⟩ := Option.ne_none_iff_exists'.mp (h e ((hmem e).mp he))
  exact ⟨data, hdata, heq ▸ hdata⟩

theorem addFact_known {xs : List FactInput} {facts : FactStore} (h : addFacts OrderedMap.empty xs = .ok facts)
    {x : FactInput} (hx : x ∈ xs) (hdata : ∀ e ∈ x.evidenceOrNone, e.metadataWireFields ≠ none) :
    ∃ id, addFact facts x = .ok (facts, id) := by
  obtain ⟨hagree, fs, hfs, hgathers⟩ := holds_of_addFacts h
  obtain ⟨g, hg, hbuild⟩ := forall₂_exists_right hfs hx
  have hsymm : Std.Symm AgreeInputs := ⟨fun _ _ => AgreeInputs.symm⟩
  have hall (y : FactInput) (hy : y ∈ xs) : AgreeInputs y x := by
    by_cases hyx : y = x
    · rw [hyx]
      exact agreeInputs_self hdata
    · exact hagree.forall hy hx hyx
  obtain ⟨facts', hadd⟩ := Holds.exists_addFact ⟨fs, hfs, hgathers⟩ ⟨g, hbuild⟩ hall
  obtain ⟨⟨after, id⟩, hadd, _⟩ := map_eq_ok.mp hadd
  refine ⟨id, ?_⟩
  obtain ⟨g', hbuild', hrun⟩ := bind_eq_ok.mp hadd
  obtain rfl := Except.ok.inj (hbuild.symm.trans hbuild')
  obtain ⟨placed, hplace, hrun⟩ := bind_eq_ok.mp hrun
  obtain ⟨rfl, rfl⟩ := Prod.mk.inj (Except.ok.inj hrun)
  obtain ⟨f, hf⟩ := hgathers.covers g hg
  obtain ⟨hid, hfact⟩ := hgathers.keyed _ f hf
  rw [placeFact, hf] at hplace
  obtain ⟨merged, happend, hset⟩ := bind_eq_ok.mp hplace
  obtain rfl := hfact.append_known (isBuilt_of_buildFact hbuild) hg hid happend
  obtain rfl := Except.ok.inj hset
  rw [hadd, OrderedMap.set_of_get? hf]

/-- Evidence that is not text throughout cannot be added twice. -/
theorem addFact_known_error {xs : List FactInput} {facts : FactStore} (h : addFacts OrderedMap.empty xs = .ok facts)
    {x : FactInput} (hx : x ∈ xs) {e : MetadataRecord} (he : e ∈ x.evidenceOrNone) (hdata : e.metadataWireFields = none) :
    ∃ failure, addFact facts x = .error failure := by
  obtain ⟨_, hholds⟩ := holds_of_addFacts h
  cases hadd : addFact facts x with
  | error failure => exact ⟨failure, rfl⟩
  | ok result =>
      have hself := (hholds.of_addFact (map_eq_ok.mpr ⟨result, hadd, rfl⟩)).1 x hx
      obtain ⟨fs, hfs, _⟩ := hholds
      obtain ⟨g, _, hbuild⟩ := forall₂_exists_right hfs hx
      obtain ⟨provenance, evidence, _, hevidence, _, _, _, hassertions⟩ := buildFact_eq_ok hbuild
      have hmem := ((normalize_eq_ok hevidence).2.2 e).mpr he
      have hsource := hassertions ▸ List.mem_singleton_self _
      obtain ⟨data, hsome, _⟩ := ((hself g g hbuild hbuild rfl).2 _ hsource _ hsource rfl).2 e hmem e hmem rfl
      rw [hdata] at hsome
      cases hsome

/-! ### The order -/

/-- Any two orders of adding inputs fail together or give facts with the same texts, and an input that is there changes
nothing. Only evidence with a property that is `undefined` is refused the second time. -/
theorem addFacts_order (xs : List FactInput) :
    (∀ ys, xs.Perm ys →
      (∃ e e', addFacts OrderedMap.empty xs = .error e ∧ addFacts OrderedMap.empty ys = .error e') ∨
      ∃ facts facts', addFacts OrderedMap.empty xs = .ok facts ∧ addFacts OrderedMap.empty ys = .ok facts' ∧
        (sortedFacts facts).map StoredFact.text = (sortedFacts facts').map StoredFact.text) ∧
    ∀ facts, addFacts OrderedMap.empty xs = .ok facts → ∀ x ∈ xs,
      (∃ id, addFact facts x = .ok (facts, id)) ∨
      (∃ e ∈ x.evidenceOrNone, e.metadataWireFields = none) ∧ ∃ failure, addFact facts x = .error failure := by
  constructor
  · intro ys hperm
    cases hxs : addFacts OrderedMap.empty xs with
    | error e =>
        cases hys : addFacts OrderedMap.empty ys with
        | error e' => exact .inl ⟨e, e', rfl, rfl⟩
        | ok facts' =>
            obtain ⟨facts, hfacts⟩ := exists_addFacts_of_perm hperm.symm hys
            rw [hxs] at hfacts
            cases hfacts
    | ok facts =>
        obtain ⟨facts', hys⟩ := exists_addFacts_of_perm hperm hxs
        obtain ⟨_, fs, hfs, hgathers⟩ := holds_of_addFacts hxs
        obtain ⟨_, gs, hgs, hgathers'⟩ := holds_of_addFacts hys
        refine .inr ⟨facts, facts', rfl, hys, hgathers.map_text hgathers' fun k => ?_⟩
        constructor
        · intro hk
          obtain ⟨x, hx, hbuild⟩ := forall₂_exists_left hfs hk
          obtain ⟨k', hk', hbuild'⟩ := forall₂_exists_right hgs (hperm.mem_iff.mp hx)
          exact Except.ok.inj (hbuild'.symm.trans hbuild) ▸ hk'
        · intro hk
          obtain ⟨y, hy, hbuild⟩ := forall₂_exists_left hgs hk
          obtain ⟨k', hk', hbuild'⟩ := forall₂_exists_right hfs (hperm.mem_iff.mpr hy)
          exact Except.ok.inj (hbuild'.symm.trans hbuild) ▸ hk'
  · intro facts hfacts x hx
    by_cases hdata : ∃ e ∈ x.evidenceOrNone, e.metadataWireFields = none
    · obtain ⟨e, he, hnone⟩ := hdata
      exact .inr ⟨⟨e, he, hnone⟩, addFact_known_error hfacts hx he hnone⟩
    · push Not at hdata
      exact .inl (addFact_known hfacts hx hdata)

end Hash

/-! ### The sign of zero -/

/-- A fact that is held with no confidence at all. -/
def unconfident (negative : Bool) : FactInput where
  subject := "app:shop"
  predicate := .contains
  object := .entity "block:cart"
  authority := .derived
  provenance := [⟨[("kind", some "compiler"), ("sourceId", some "resolve")], by decide⟩]
  evidence := none
  confidence := some (.zero negative)

/-- The first of two zeros stays. -/
theorem addFacts_zeros :
    let _ : Sha256 := ⟨fun _ => ⟨Text.ofString "sha256:" ++ List.replicate 64 (unit '0'), by decide⟩⟩
    ∃ facts facts', addFacts OrderedMap.empty [unconfident false, unconfident true] = .ok facts ∧
      addFacts OrderedMap.empty [unconfident true, unconfident false] = .ok facts' ∧
      (sortedFacts facts).map (fun f => f.assertions.map StoredAssertion.confidence) = [[.zero false]] ∧
      (sortedFacts facts').map (fun f => f.assertions.map StoredAssertion.confidence) = [[.zero true]] := by
  intro hash
  refine ⟨_, _, rfl, rfl, ?_, ?_⟩
  · decide
  · decide

end SecPlatform.Compiler.IR
