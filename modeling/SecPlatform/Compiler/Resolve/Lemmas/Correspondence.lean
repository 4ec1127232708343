import SecPlatform.Compiler.Resolve.Lemmas.Order

/-!
# Two resolutions of corresponding inputs

The inputs list corresponding entries in different orders, and corresponding entries list the same
requirements in different orders. A successful resolution fixes what the other one can select; it fails
only where it meets a requirement while it still has several providers in the catalog.
-/

namespace SecPlatform.Compiler

open Selection

/-- Entries that the resolver cannot tell apart, up to the order of what they require. -/
structure Alike (e e' : ManifestEntry) : Prop where
  id : e.manifest.id = e'.manifest.id
  kind : e.manifest.kind = e'.manifest.kind
  requires : e.manifest.requires.Perm e'.manifest.requires
  provides : e.manifest.provides = e'.manifest.provides
  conflicts : e.manifest.conflicts = e'.manifest.conflicts
  packaged : isPackaged e = isPackaged e'

theorem Alike.symm {e e' : ManifestEntry} (h : Alike e e') : Alike e' e :=
  ⟨h.id.symm, h.kind.symm, h.requires.symm, h.provides.symm, h.conflicts.symm, h.packaged.symm⟩

/-- The inputs of two resolutions list corresponding entries. -/
structure Corresponds (R : ManifestEntry → ManifestEntry → Prop)
    (explicitEntries catalog explicitEntries' catalog' : List ManifestEntry) : Prop where
  alike : ∀ e e', R e e' → Alike e e'
  explicit : ∀ e ∈ explicitEntries, ∃ e' ∈ explicitEntries', R e e'
  explicit' : ∀ e' ∈ explicitEntries', ∃ e ∈ explicitEntries, R e e'
  unique : ∀ c p, providersOf c catalog = [p] → ∃ p', providersOf c catalog' = [p'] ∧ R p p'
  unique' : ∀ c p', providersOf c catalog' = [p'] → ∃ p, providersOf c catalog = [p] ∧ R p p'
  missing : ∀ c, providersOf c catalog = [] ↔ providersOf c catalog' = []
  same : ∀ e d e', e ∈ explicitEntries → d ∈ explicitEntries → ManifestEntry.Same d e → R e e' → R d e'
  same' : ∀ e e' d', e' ∈ explicitEntries' → d' ∈ explicitEntries' → ManifestEntry.Same d' e' → R e e' → R e d'

namespace Corresponds

variable {R : ManifestEntry → ManifestEntry → Prop} {explicitEntries catalog explicitEntries' catalog' : List ManifestEntry}

theorem symm (h : Corresponds R explicitEntries catalog explicitEntries' catalog') :
    Corresponds (fun e' e => R e e') explicitEntries' catalog' explicitEntries catalog where
  alike := fun e' e hR => (h.alike e e' hR).symm
  explicit := h.explicit'
  explicit' := h.explicit
  unique := h.unique'
  unique' := h.unique
  missing := fun c => (h.missing c).symm
  same := fun e' d' e he hd hsame hR => h.same' e e' d' he hd hsame hR
  same' := fun e' e d he hd hsame hR => h.same e d e' he hd hsame hR

end Corresponds

/-- The resolution stops at a requirement with several providers. -/
def IsAmbiguous {α : Type} (x : Resolving α) : Prop :=
  ∃ capability candidates, x = .error (.ambiguousProviders capability candidates)

theorem isAmbiguous_bind {α β : Type} {x : Resolving α} {f : α → Resolving β} (h : IsAmbiguous x) :
    IsAmbiguous (x >>= f) := by
  obtain ⟨capability, candidates, rfl⟩ := h
  exact ⟨capability, candidates, rfl⟩

theorem Derived.explicit_or_packaged {explicitEntries catalog selected : List ManifestEntry}
    (h : Derived explicitEntries catalog selected) {p : ManifestEntry} (hp : p ∈ selected) :
    p ∈ explicitEntries ∨ (p ∈ catalog ∧ isPackaged p) := by
  induction h with
  | explicit hsound => exact .inl (hsound p hp)
  | provider _ _ _ _ hunique hpackaged _ ih =>
      rcases List.mem_append.mp hp with hp | hp
      · exact ih hp
      · rw [List.mem_singleton.mp hp]
        exact .inr ⟨(mem_providersOf.mp (hunique ▸ List.mem_cons_self)).1, hpackaged⟩

/-- An explicit representative is an explicit entry. -/
theorem Derived.covered {explicitEntries catalog selected : List ManifestEntry}
    (h : Derived explicitEntries catalog selected) {e : ManifestEntry} (he : e ∈ explicitEntries) :
    ∃ r ∈ selected, r ∈ explicitEntries ∧ ManifestEntry.Same r e := by
  induction h with
  | explicit hsound hcovers =>
      obtain ⟨r, hr, hsame⟩ := hcovers e he
      exact ⟨r, hr, hsound r hr, hsame⟩
  | provider _ _ _ _ _ _ _ ih =>
      obtain ⟨r, hr, hmem, hsame⟩ := ih
      exact ⟨r, List.mem_append_left _ hr, hmem, hsame⟩

/-! ## Closing in the other order -/

section Close

variable {R : ManifestEntry → ManifestEntry → Prop} {explicitEntries catalog explicitEntries' catalog' : List ManifestEntry}
  {catalogProviders' : Providers} {s t t' : Selection} {entry' : ManifestEntry} {requirement : Text}

/-- Each entry of one selection corresponds to an entry of the other. -/
def Within (R : ManifestEntry → ManifestEntry → Prop) (entries entries' : List ManifestEntry) : Prop :=
  ∀ e' ∈ entries', ∃ e ∈ entries, R e e'

/-- One requirement of the second resolution, while its selection lies within that of the first. -/
theorem Within.require (hR : Corresponds R explicitEntries catalog explicitEntries' catalog')
    (hs : Closing explicitEntries catalog s) (hclosed : ∀ e ∈ s.queue, Satisfied s.queue e)
    (ht : Closing explicitEntries' catalog' t) (hcatalog : Indexes catalogProviders' catalog')
    (hwithin : Within R s.queue t.queue) (hentry : entry' ∈ t.queue) (hmem : requirement ∈ entry'.manifest.requires) :
    IsAmbiguous (Selection.require catalogProviders' entry' t requirement) ∨
      ∃ t', Selection.require catalogProviders' entry' t requirement = .ok t' ∧ Within R s.queue t'.queue := by
  by_cases hprovided : ∃ e ∈ t.queue, requirement ∈ e.manifest.provides
  · exact .inr ⟨t, (require_eq_ok_iff hcatalog ht.coherent).mpr (.inl ⟨hprovided, rfl⟩), hwithin⟩
  have hnone : ∀ e ∈ t.queue, requirement ∉ e.manifest.provides := fun e he hmem => hprovided ⟨e, he, hmem⟩
  obtain ⟨entry, hentry, hRentry⟩ := hwithin entry' hentry
  obtain ⟨p, hp, hprovides⟩ := hclosed entry hentry requirement ((hR.alike _ _ hRentry).requires.mem_iff.mpr hmem)
  -- the provider is not an explicit entry: the second selection would provide the requirement
  rcases hs.derived.explicit_or_packaged hp with hexplicit | ⟨hpcatalog, hpackaged⟩
  · obtain ⟨p', hp', hRp⟩ := hR.explicit p hexplicit
    obtain ⟨r', hr', -, hsame⟩ := ht.derived.covered hp'
    refine absurd ?_ (hnone r' hr')
    rw [hsame.manifest.fields.2.2.2.2.1, ← (hR.alike _ _ hRp).provides]
    exact hprovides
  have hcandidate : p ∈ providersOf requirement catalog := mem_providersOf.mpr ⟨hpcatalog, hprovides⟩
  match hproviders : providersOf requirement catalog' with
  | [] =>
      rw [(hR.missing requirement).mpr hproviders] at hcandidate
      cases hcandidate
  | [p'] =>
      obtain ⟨q, hq, hRq⟩ := hR.unique' requirement p' hproviders
      rw [hq] at hcandidate
      obtain rfl := List.mem_singleton.mp hcandidate
      have hnew : t.byId.get? p'.manifest.id = none := by
        refine ht.coherent.byId_none.mpr fun e' he' hid => ?_
        obtain ⟨e, he, hRe⟩ := hwithin e' he'
        have hids : e.manifest.id = p.manifest.id := (hR.alike _ _ hRe).id.trans (hid.trans (hR.alike _ _ hRq).id.symm)
        obtain rfl := List.inj_on_of_nodup_map hs.derived.nodup_ids he hp hids
        exact hnone e' he' ((hR.alike _ _ hRe).provides ▸ hprovides)
      refine .inr ⟨t.select p', (require_eq_ok_iff hcatalog ht.coherent).mpr
        (.inr ⟨hnone, p', hproviders, hnew, (hR.alike _ _ hRq).packaged ▸ hpackaged, rfl⟩), fun e' he' => ?_⟩
      rcases List.mem_append.mp he' with he' | he'
      · exact hwithin e' he'
      · rw [List.mem_singleton.mp he']
        exact ⟨p, hp, hRq⟩
  | a :: b :: more =>
      left
      unfold Selection.require
      rw [if_neg fun hhas => hprovided (ht.coherent.providers.has_iff.mp hhas), hcatalog.getD, hproviders]
      exact ⟨_, _, rfl⟩

theorem Within.requirements (hR : Corresponds R explicitEntries catalog explicitEntries' catalog')
    (hs : Closing explicitEntries catalog s) (hclosed : ∀ e ∈ s.queue, Satisfied s.queue e)
    (ht : Closing explicitEntries' catalog' t) (hcatalog : Indexes catalogProviders' catalog')
    (hwithin : Within R s.queue t.queue) (hentry : entry' ∈ t.queue) :
    IsAmbiguous (entry'.manifest.requires.foldlM (Selection.require catalogProviders' entry') t) ∨
      ∃ t', entry'.manifest.requires.foldlM (Selection.require catalogProviders' entry') t = .ok t' ∧
        Within R s.queue t'.queue := by
  have hloop : ∀ (rs : List Text) (t : Selection), (∀ r ∈ rs, r ∈ entry'.manifest.requires) →
      Closing explicitEntries' catalog' t → entry' ∈ t.queue → Within R s.queue t.queue →
      IsAmbiguous (rs.foldlM (Selection.require catalogProviders' entry') t) ∨
        ∃ t', rs.foldlM (Selection.require catalogProviders' entry') t = .ok t' ∧ Within R s.queue t'.queue := by
    intro rs
    induction rs with
    | nil => exact fun t _ _ _ hwithin => .inr ⟨t, rfl, hwithin⟩
    | cons r rs ih =>
        intro t hrs ht hentry hwithin
        rw [List.foldlM_cons]
        have hr := hrs r List.mem_cons_self
        rcases Within.require hR hs hclosed ht hcatalog hwithin hentry hr with hstop | ⟨u, hu, hwithin⟩
        · exact .inl (isAmbiguous_bind hstop)
        · obtain ⟨hclosing, hstays, -⟩ := ht.require hcatalog hentry hr hu
          rw [hu, ok_bind]
          exact ih u (fun q hq => hrs q (List.mem_cons_of_mem _ hq)) hclosing (hstays.subset hentry) hwithin
  exact hloop _ t (fun _ hr => hr) ht hentry hwithin

theorem Within.close (hR : Corresponds R explicitEntries catalog explicitEntries' catalog')
    (hs : Closing explicitEntries catalog s) (hclosed : ∀ e ∈ s.queue, Satisfied s.queue e)
    (hcatalog : Indexes catalogProviders' catalog') {fuel index : Nat} (ht : Closing explicitEntries' catalog' t)
    (hwithin : Within R s.queue t.queue) :
    IsAmbiguous (t.close catalogProviders' fuel index) ∨
      ∃ t', t.close catalogProviders' fuel index = .ok t' ∧ Within R s.queue t'.queue := by
  induction fuel generalizing index t with
  | zero => exact .inr ⟨t, rfl, hwithin⟩
  | succ fuel ih =>
      unfold Selection.close
      cases hget : t.queue[index]? with
      | none => exact .inr ⟨t, rfl, hwithin⟩
      | some entry' =>
          have hentry := List.mem_of_getElem? hget
          dsimp only
          rcases Within.requirements hR hs hclosed ht hcatalog hwithin hentry with hstop | ⟨u, hu, hwithin⟩
          · exact .inl (isAmbiguous_bind hstop)
          · obtain ⟨hclosing, -, -⟩ := ht.requirements hcatalog hentry hu
            rw [hu, ok_bind]
            exact ih hclosing hwithin

end Close

/-! ## Matching selections -/

section Match

variable {R : ManifestEntry → ManifestEntry → Prop} {entries entries' : List ManifestEntry} {providers providers' : Providers}

/-- Two selections with corresponding entries. -/
structure Matches (R : ManifestEntry → ManifestEntry → Prop) (entries entries' : List ManifestEntry) : Prop where
  alike : ∀ e ∈ entries, ∀ e' ∈ entries', R e e' → Alike e e'
  within : Within R entries entries'
  within' : Within (fun e' e => R e e') entries' entries
  ids : (entries.map fun e => e.manifest.id).Nodup
  ids' : (entries'.map fun e => e.manifest.id).Nodup

namespace Matches

/-- Entries with one id correspond. -/
theorem of_id (h : Matches R entries entries') {e e' : ManifestEntry} (he : e ∈ entries) (he' : e' ∈ entries')
    (hid : e.manifest.id = e'.manifest.id) : R e e' := by
  obtain ⟨d', hd', hR⟩ := h.within' e he
  have hids : d'.manifest.id = e'.manifest.id := (h.alike e he d' hd' hR).id.symm.trans hid
  obtain rfl := List.inj_on_of_nodup_map h.ids' hd' he' hids
  exact hR

theorem map_perm (h : Matches R entries entries') {α : Type} {f : ManifestEntry → α}
    (hf : ∀ e e', Alike e e' → f e = f e') (hnodup : (entries.map f).Nodup) (hnodup' : (entries'.map f).Nodup) :
    (entries.map f).Perm (entries'.map f) := by
  refine (List.perm_ext_iff_of_nodup hnodup hnodup').mpr fun a => ?_
  simp only [List.mem_map]
  constructor
  · rintro ⟨e, he, rfl⟩
    obtain ⟨e', he', hR⟩ := h.within' e he
    exact ⟨e', he', (hf e e' (h.alike e he e' he' hR)).symm⟩
  · rintro ⟨e', he', rfl⟩
    obtain ⟨e, he, hR⟩ := h.within e' he'
    exact ⟨e, he, hf e e' (h.alike e he e' he' hR)⟩

theorem nodup_rankKey {xs : List ManifestEntry} (h : (xs.map fun e => e.manifest.id).Nodup) :
    (xs.map rankKey).Nodup := by
  refine List.Nodup.of_map (fun key => (ofLex key).2) ?_
  rw [List.map_map]
  exact h

/-- The entries of one rank correspond. -/
theorem ranked (h : Matches R entries entries') :
    (Orderable.ranked entries).Forall₂ (fun e e' => R e e' ∧ Alike e e') (Orderable.ranked entries') := by
  have hkey : ∀ e e', Alike e e' → rankKey e = rankKey e' := fun e e' halike => by
    rw [rankKey, rankKey, halike.kind, halike.id]
  have hkeys : (Orderable.ranked entries).map rankKey = (Orderable.ranked entries').map rankKey := by
    have hsorted : ∀ xs : List ManifestEntry, (Orderable.ranked xs).map rankKey = sortBy id (xs.map rankKey) :=
      fun xs => map_sortBy rankKey id xs
    rw [hsorted, hsorted]
    exact sortBy_id_eq_of_perm (h.map_perm hkey (nodup_rankKey h.ids) (nodup_rankKey h.ids'))
  have hlength : (Orderable.ranked entries).length = (Orderable.ranked entries').length := by
    simpa using congrArg List.length hkeys
  refine List.forall₂_iff_get.mpr ⟨hlength, fun i hi hi' => ?_⟩
  have hi₂ : i < ((Orderable.ranked entries).map rankKey).length := by simpa using hi
  have hrank : rankKey ((Orderable.ranked entries).get ⟨i, hi⟩) = rankKey ((Orderable.ranked entries').get ⟨i, hi'⟩) := by
    have hget := congrArg (·[i]?) hkeys
    simpa [List.getElem?_eq_getElem hi, List.getElem?_eq_getElem hi'] using hget
  have he := mem_sortBy.mp (List.get_mem (Orderable.ranked entries) ⟨i, hi⟩)
  have he' := mem_sortBy.mp (List.get_mem (Orderable.ranked entries') ⟨i, hi'⟩)
  have hR := h.of_id he he' (congrArg (fun key => (ofLex key).2) hrank)
  exact ⟨hR, h.alike _ he _ he' hR⟩

theorem length_eq (h : Matches R entries entries') : entries.length = entries'.length := by
  have hlength := h.ranked.length_eq
  rwa [length_sortBy, length_sortBy] at hlength

theorem get?_rel {xs xs' : List ManifestEntry} {Q : ManifestEntry → ManifestEntry → Prop} (h : xs.Forall₂ Q xs')
    (i : Nat) : Option.Rel Q xs[i]? xs'[i]? := by
  induction h generalizing i with
  | nil => exact .none
  | cons hq _ ih =>
      cases i with
      | zero => exact .some hq
      | succ i => exact ih i

/-- The selections have one dependency relation. -/
theorem dependsOn_eq (h : Matches R entries entries') :
    dependsOn (Orderable.ranked entries) = dependsOn (Orderable.ranked entries') := by
  funext p r
  have hp := get?_rel h.ranked p
  have hr := get?_rel h.ranked r
  unfold dependsOn
  generalize (Orderable.ranked entries)[p]? = x at hp ⊢
  generalize (Orderable.ranked entries')[p]? = x' at hp ⊢
  generalize (Orderable.ranked entries)[r]? = y at hr ⊢
  generalize (Orderable.ranked entries')[r]? = y' at hr ⊢
  cases hp with
  | none => rfl
  | some hp =>
      cases hr with
      | none => rfl
      | some hr =>
          dsimp only
          rw [hp.2.provides, Bool.eq_iff_iff]
          simp only [Bool.and_eq_true, List.any_eq_true, hr.2.requires.mem_iff]

/-- Corresponding selections are ordered alike. -/
theorem orderManifests (h : Matches R entries entries') (ho : Orderable entries providers)
    (ho' : Orderable entries' providers') {ordered : List ManifestEntry}
    (hok : Compiler.orderManifests entries providers = .ok ordered) :
    ∃ ordered', Compiler.orderManifests entries' providers' = .ok ordered' ∧ ordered.Forall₂ R ordered' := by
  obtain ⟨hlength, rfl⟩ := ho.orderManifests_eq_ok.mp hok
  have hranks : Orderable.orderedRanks entries = Orderable.orderedRanks entries' := by
    unfold Orderable.orderedRanks
    rw [h.dependsOn_eq, h.length_eq]
  refine ⟨_, ho'.orderManifests_eq_ok.mpr ⟨by rw [← hranks, hlength, h.length_eq], rfl⟩, ?_⟩
  rw [hranks]
  generalize Orderable.orderedRanks entries' = ranks
  induction ranks with
  | nil => exact .nil
  | cons rank ranks ih =>
      have hrel := get?_rel h.ranked rank
      rw [List.filterMap_cons, List.filterMap_cons]
      generalize (Orderable.ranked entries)[rank]? = x at hrel ⊢
      generalize (Orderable.ranked entries')[rank]? = x' at hrel ⊢
      cases hrel with
      | none => exact ih
      | some hR => exact .cons hR.1 ih

/-- Corresponding selections provide the same capabilities. -/
theorem provides (h : Matches R entries entries') (c : Text) :
    (∃ e ∈ entries, c ∈ e.manifest.provides) ↔ ∃ e' ∈ entries', c ∈ e'.manifest.provides := by
  constructor
  · rintro ⟨e, he, hc⟩
    obtain ⟨e', he', hR⟩ := h.within' e he
    exact ⟨e', he', (h.alike e he e' he' hR).provides ▸ hc⟩
  · rintro ⟨e', he', hc⟩
    obtain ⟨e, he, hR⟩ := h.within e' he'
    exact ⟨e, he, (h.alike e he e' he' hR).provides ▸ hc⟩

theorem hasId (h : Matches R entries entries') (id : Text) :
    (∃ e ∈ entries, e.manifest.id = id) ↔ ∃ e' ∈ entries', e'.manifest.id = id := by
  constructor
  · rintro ⟨e, he, rfl⟩
    obtain ⟨e', he', hR⟩ := h.within' e he
    exact ⟨e', he', (h.alike e he e' he' hR).id.symm⟩
  · rintro ⟨e', he', rfl⟩
    obtain ⟨e, he, hR⟩ := h.within e' he'
    exact ⟨e, he, (h.alike e he e' he' hR).id⟩

end Matches

end Match

/-! ## Conflicts and capabilities -/

namespace Selection

variable {s : Selection}

/-- No selected entry names another one, or what it provides, as a conflict. -/
def NoConflicts (entries : List ManifestEntry) : Prop :=
  ∀ e ∈ entries, ∀ conflict ∈ e.manifest.conflicts,
    (¬ ∃ other ∈ entries, other.manifest.id = conflict) ∧ ¬ ∃ other ∈ entries, conflict ∈ other.manifest.provides

theorem Coherent.noConflicts_iff (h : Coherent s) :
    (s.queue.forM fun entry => entry.manifest.conflicts.forM (s.assertNoConflict entry)) = .ok () ↔
      NoConflicts s.queue := by
  have hid : ∀ id, s.byId.has id ↔ ∃ other ∈ s.queue, other.manifest.id = id := by
    intro id
    rw [OrderedMap.has, Option.isSome_iff_exists]
    exact exists_congr fun e => h.byId id e
  rw [forM_eq_ok]
  refine forall₂_congr fun e he => ?_
  rw [forM_eq_ok]
  refine forall₂_congr fun conflict hconflict => ?_
  rw [← hid, ← h.providers.has_iff, assertNoConflict]
  cases s.byId.has conflict <;> cases s.selectedProviders.has conflict <;> simp

theorem Coherent.mem_capabilities (h : Coherent s) (c : Text) :
    c ∈ sortBy id s.selectedProviders.keys ↔ ∃ e ∈ s.queue, c ∈ e.manifest.provides := by
  rw [mem_sortBy, ← OrderedMap.has_iff, h.providers.has_iff]

theorem Closing.orderable {explicitEntries catalog : List ManifestEntry} (h : Closing explicitEntries catalog s)
    (hclosed : ∀ e ∈ s.queue, Satisfied s.queue e) : Orderable s.queue s.selectedProviders :=
  ⟨h.coherent.providers, h.derived.nodup_ids, hclosed⟩

end Selection

end SecPlatform.Compiler
