import SecPlatform.Compiler.Resolve.Lemmas.Correspondence

/-!
# Resolutions

What a successful resolution has gone through, and the resolution of permuted inputs.
-/

namespace SecPlatform.Compiler

open Selection Contracts

variable {explicitEntries catalog explicitEntries' catalog' : List ManifestEntry} {graph : ResolvedGraph}

theorem indexes_catalog (catalog : List ManifestEntry) : Indexes (catalog.foldl addProvider .empty) catalog := by
  simpa using Indexes.empty.foldl catalog

/-- The selection closed under the requirements of its entries, from the explicit entries on. -/
structure Selected (explicitEntries catalog : List ManifestEntry) (start s : Selection) : Prop where
  explicit : explicitEntries.foldlM selectExplicit .empty = .ok start
  close : start.close (catalog.foldl addProvider .empty) (explicitEntries.length + catalog.length) 0 = .ok s

namespace Selected

variable {start s : Selection}

theorem started (h : Selected explicitEntries catalog start s) : Explicit explicitEntries start :=
  explicit_of_eq_ok h.explicit

theorem closing (h : Selected explicitEntries catalog start s) :
    Closing explicitEntries catalog s ∧ ∀ e ∈ s.queue, Satisfied s.queue e := by
  obtain ⟨hclosing, -, hclosed⟩ := h.started.closing.close (indexes_catalog catalog) (by simp) (by simp) h.close
  exact ⟨hclosing, hclosed⟩

theorem orderable (h : Selected explicitEntries catalog start s) : Orderable s.queue s.selectedProviders :=
  h.closing.1.orderable h.closing.2

end Selected

/-- The stages of a successful resolution. -/
structure Resolution (explicitEntries catalog : List ManifestEntry) (start s : Selection) (graph : ResolvedGraph) :
    Prop where
  definitions : ConsistentDefinitions (explicitEntries ++ catalog)
  selected : Selected explicitEntries catalog start s
  conflicts : NoConflicts s.queue
  order : orderManifests s.queue s.selectedProviders = .ok graph.entries
  capabilities : graph.capabilities = sortBy id s.selectedProviders.keys

theorem resolveManifestGraph_eq_ok :
    resolveManifestGraph explicitEntries catalog = .ok graph ↔ ∃ start s, Resolution explicitEntries catalog start s graph := by
  unfold resolveManifestGraph
  simp only [bind_eq_ok, pure_eq_ok, Except.ok.injEq]
  constructor
  · rintro ⟨⟨⟩, hdefinitions, start, hexplicit, s, hclose, ⟨⟩, hconflicts, entries, horder, rfl⟩
    have hselected : Selected explicitEntries catalog start s := ⟨hexplicit, hclose⟩
    exact ⟨start, s, assertManifestDefinitionConsistency_eq_ok.mp hdefinitions, hselected,
      hselected.closing.1.coherent.noConflicts_iff.mp hconflicts, horder, rfl⟩
  · rintro ⟨start, s, h⟩
    refine ⟨(), assertManifestDefinitionConsistency_eq_ok.mpr h.definitions, start, h.selected.explicit, s,
      h.selected.close, (), h.selected.closing.1.coherent.noConflicts_iff.mpr h.conflicts, graph.entries, h.order, ?_⟩
    rw [← h.capabilities]

/-! ## The selected set -/

/-- What the resolution has selected when it comes to the order. -/
def selectManifests (explicitEntries catalog : List ManifestEntry) : Resolving Selection := do
  assertManifestDefinitionConsistency (explicitEntries ++ catalog)
  let s ← explicitEntries.foldlM selectExplicit .empty
  let s ← s.close (catalog.foldl addProvider .empty) (explicitEntries.length + catalog.length) 0
  s.queue.forM fun entry => entry.manifest.conflicts.forM (s.assertNoConflict entry)
  return s

theorem resolveManifestGraph_eq (explicitEntries catalog : List ManifestEntry) :
    resolveManifestGraph explicitEntries catalog = selectManifests explicitEntries catalog >>= fun s =>
      (orderManifests s.queue s.selectedProviders).map fun entries => ⟨entries, sortBy id s.selectedProviders.keys⟩ := by
  simp only [resolveManifestGraph, selectManifests, bind_assoc, pure_bind]
  rfl

theorem selected_of_selectManifests {s : Selection} (h : selectManifests explicitEntries catalog = .ok s) :
    ∃ start, Selected explicitEntries catalog start s := by
  unfold selectManifests at h
  obtain ⟨_, h⟩ := check_bind_eq_ok.mp h
  obtain ⟨start, hexplicit, h⟩ := bind_eq_ok.mp h
  obtain ⟨s', hclose, h⟩ := bind_eq_ok.mp h
  obtain ⟨_, h⟩ := check_bind_eq_ok.mp h
  cases h
  exact ⟨start, hexplicit, hclose⟩

theorem require_ne_cycle {catalogProviders : Providers} {entry : ManifestEntry} {s : Selection} {requirement : Text}
    {blocked : List Text} : Selection.require catalogProviders entry s requirement ≠ .error (.cycle blocked) := by
  intro h
  unfold Selection.require at h
  repeat' split at h
  all_goals cases h

theorem close_ne_cycle {catalogProviders : Providers} {blocked : List Text} (fuel index : Nat) (s : Selection) :
    s.close catalogProviders fuel index ≠ .error (.cycle blocked) := by
  induction fuel generalizing index s with
  | zero =>
      intro h
      cases h
  | succ fuel ih =>
      rw [close]
      split
      · intro h
        cases h
      · intro h
        rcases bind_eq_error.mp h with h | ⟨t, -, h⟩
        · obtain ⟨_, _, _, _, -, -, h⟩ := exists_of_foldlM_error h
          exact require_ne_cycle h
        · exact ih _ _ h

/-- Cycles are found by the order alone. -/
theorem selectManifests_ne_cycle (blocked : List Text) :
    selectManifests explicitEntries catalog ≠ .error (.cycle blocked) := by
  intro h
  unfold selectManifests at h
  rcases bind_eq_error.mp h with h | ⟨_, -, h⟩
  · unfold assertManifestDefinitionConsistency at h
    rcases bind_eq_error.mp h with h | ⟨_, -, h⟩
    · obtain ⟨_, _, _, _, -, -, h⟩ := exists_of_foldlM_error h
      unfold assertConsistentDefinition at h
      repeat' split at h
      all_goals cases h
    · cases h
  rcases bind_eq_error.mp h with h | ⟨_, -, h⟩
  · obtain ⟨_, _, _, _, -, -, h⟩ := exists_of_foldlM_error h
    unfold selectExplicit at h
    repeat' split at h
    all_goals cases h
  rcases bind_eq_error.mp h with h | ⟨s, -, h⟩
  · exact close_ne_cycle _ _ _ h
  rcases bind_eq_error.mp h with h | ⟨_, -, h⟩
  · obtain ⟨entry, -, h⟩ := exists_of_forM_error h
    obtain ⟨conflict, -, h⟩ := exists_of_forM_error h
    unfold assertNoConflict at h
    repeat' split at h
    all_goals cases h
  · cases h

/-! ## Corresponding inputs -/

/-- The results list corresponding entries and the same capabilities. -/
structure SameGraph (R : ManifestEntry → ManifestEntry → Prop) (graph graph' : ResolvedGraph) : Prop where
  entries : graph.entries.Forall₂ R graph'.entries
  capabilities : graph.capabilities = graph'.capabilities

variable {R : ManifestEntry → ManifestEntry → Prop}

/-- The second selection lies within the first one, unless it is ambiguous. -/
theorem Corresponds.close (hR : Corresponds R explicitEntries catalog explicitEntries' catalog') {start s t₀ : Selection}
    (hs : Selected explicitEntries catalog start s) (ht : explicitEntries'.foldlM selectExplicit .empty = .ok t₀) :
    IsAmbiguous (t₀.close (catalog'.foldl addProvider .empty) (explicitEntries'.length + catalog'.length) 0) ∨
      ∃ t, Selected explicitEntries' catalog' t₀ t ∧ Within R s.queue t.queue := by
  have hstart := explicit_of_eq_ok ht
  have hwithin : Within R s.queue t₀.queue := by
    intro e' he'
    obtain ⟨e, he, hRe⟩ := hR.explicit' e' (hstart.sound e' he')
    obtain ⟨r, hr, hmem, hsame⟩ := hs.closing.1.derived.covered he
    exact ⟨r, hr, hR.same e r e' he hmem hsame hRe⟩
  rcases Within.close hR hs.closing.1 hs.closing.2 (indexes_catalog catalog') hstart.closing hwithin with
    hstop | ⟨t, hclose, hwithin⟩
  · exact .inl hstop
  · exact .inr ⟨t, ⟨ht, hclose⟩, hwithin⟩

/-- A resolution that succeeds decides the resolution of corresponding inputs, unless that one is ambiguous. -/
theorem Corresponds.resolve (hR : Corresponds R explicitEntries catalog explicitEntries' catalog')
    (hdefinitions : ConsistentDefinitions (explicitEntries' ++ catalog'))
    (hselections : ConsistentSelections explicitEntries')
    (h : resolveManifestGraph explicitEntries catalog = .ok graph) :
    IsAmbiguous (resolveManifestGraph explicitEntries' catalog') ∨
      ∃ graph', resolveManifestGraph explicitEntries' catalog' = .ok graph' ∧ SameGraph R graph graph' := by
  obtain ⟨start, s, h⟩ := resolveManifestGraph_eq_ok.mp h
  obtain ⟨t₀, ht₀⟩ := explicit_succeeds hselections
  rcases hR.close h.selected ht₀ with hstop | ⟨t, ht, hwithin⟩
  · left
    unfold resolveManifestGraph
    rw [assertManifestDefinitionConsistency_eq_ok.mpr hdefinitions, ok_bind, ht₀, ok_bind]
    exact isAmbiguous_bind hstop
  right
  -- the first resolution is not ambiguous, so it lies within the second one in turn
  have hwithin' : Within (fun e' e => R e e') t.queue s.queue := by
    rcases hR.symm.close ht h.selected.explicit with ⟨_, _, hstop⟩ | ⟨s', hs', hback⟩
    · rw [h.selected.close] at hstop
      cases hstop
    · have heq := h.selected.close.symm.trans hs'.close
      cases heq
      exact hback
  have hmatches : Matches R s.queue t.queue := ⟨fun e _ e' _ => hR.alike e e', hwithin, hwithin',
    h.selected.closing.1.derived.nodup_ids, ht.closing.1.derived.nodup_ids⟩
  obtain ⟨ordered', horder', hentries⟩ := hmatches.orderManifests h.selected.orderable ht.orderable h.order
  have hconflicts : NoConflicts t.queue := by
    intro e' he' conflict hconflict
    obtain ⟨e, he, hRe⟩ := hwithin e' he'
    rw [← (hR.alike e e' hRe).conflicts] at hconflict
    obtain ⟨hid, hprovides⟩ := h.conflicts e he conflict hconflict
    exact ⟨fun hother => hid ((hmatches.hasId conflict).mpr hother),
      fun hother => hprovides ((hmatches.provides conflict).mpr hother)⟩
  refine ⟨⟨ordered', sortBy id t.selectedProviders.keys⟩,
    resolveManifestGraph_eq_ok.mpr ⟨t₀, t, hdefinitions, ht, hconflicts, horder', rfl⟩, hentries, ?_⟩
  rw [h.capabilities]
  refine sortBy_id_eq_of_perm ((List.perm_ext_iff_of_nodup s.selectedProviders.nodup_keys
    t.selectedProviders.nodup_keys).mpr fun c => ?_)
  rw [← OrderedMap.has_iff, ← OrderedMap.has_iff, h.selected.closing.1.coherent.providers.has_iff,
    ht.closing.1.coherent.providers.has_iff]
  exact hmatches.provides c

/-! ## Permuted inputs -/

/-- The entry with its requirements in another order. -/
def ManifestEntry.reorder (order : ManifestEntry → List Text) (e : ManifestEntry) : ManifestEntry :=
  { e with manifest := { e.manifest with requires := order e } }

/-- A new order of each entry's requirements: alike for the entries that define one version of a block alike. -/
structure Reorders (order : ManifestEntry → List Text) (entries : List ManifestEntry) : Prop where
  perm : ∀ e ∈ entries, (order e).Perm e.manifest.requires
  alike : ∀ a ∈ entries, ∀ b ∈ entries, a.manifest.id = b.manifest.id → a.manifest.version = b.manifest.version →
    (order a = order b ↔ a.manifest.requires = b.manifest.requires)

namespace Reorders

variable {order : ManifestEntry → List Text} {entries : List ManifestEntry} {a b : ManifestEntry}

theorem same_manifest_iff (h : Reorders order entries) (ha : a ∈ entries) (hb : b ∈ entries) :
    (a.reorder order).manifest.Same (b.reorder order).manifest ↔ a.manifest.Same b.manifest := by
  rw [BlockManifest.same_iff, BlockManifest.same_iff]
  simp only [ManifestEntry.reorder]
  constructor
  · rintro ⟨⟨hid, hversion, hkind, hrequires, hprovides, hconflicts⟩, hdetails⟩
    exact ⟨⟨hid, hversion, hkind, (h.alike a ha b hb hid hversion).mp hrequires, hprovides, hconflicts⟩, hdetails⟩
  · rintro ⟨⟨hid, hversion, hkind, hrequires, hprovides, hconflicts⟩, hdetails⟩
    exact ⟨⟨hid, hversion, hkind, (h.alike a ha b hb hid hversion).mpr hrequires, hprovides, hconflicts⟩, hdetails⟩

theorem same_iff (h : Reorders order entries) (ha : a ∈ entries) (hb : b ∈ entries) :
    (a.reorder order).Same (b.reorder order) ↔ a.Same b := by
  rw [ManifestEntry.same_iff, ManifestEntry.same_iff, h.same_manifest_iff ha hb]
  rfl

theorem consistentDefinitions_iff (h : Reorders order entries) {entries' : List ManifestEntry}
    (hperm : entries'.Perm (entries.map (ManifestEntry.reorder order))) :
    ConsistentDefinitions entries' ↔ ConsistentDefinitions entries := by
  constructor
  · intro hc a ha b hb hid hversion
    refine (h.same_manifest_iff ha hb).mp (hc _ ?_ _ ?_ hid hversion)
    · exact hperm.mem_iff.mpr (List.mem_map_of_mem ha)
    · exact hperm.mem_iff.mpr (List.mem_map_of_mem hb)
  · intro hc a' ha' b' hb' hid hversion
    obtain ⟨a, ha, rfl⟩ := List.mem_map.mp (hperm.mem_iff.mp ha')
    obtain ⟨b, hb, rfl⟩ := List.mem_map.mp (hperm.mem_iff.mp hb')
    exact (h.same_manifest_iff ha hb).mpr (hc a ha b hb hid hversion)

theorem consistentSelections_iff (h : Reorders order entries) {explicitEntries explicitEntries' : List ManifestEntry}
    (hsub : explicitEntries ⊆ entries) (hperm : explicitEntries'.Perm (explicitEntries.map (ManifestEntry.reorder order))) :
    ConsistentSelections explicitEntries' ↔ ConsistentSelections explicitEntries := by
  constructor
  · intro hc a ha b hb hid
    refine (h.same_iff (hsub ha) (hsub hb)).mp (hc _ ?_ _ ?_ hid)
    · exact hperm.mem_iff.mpr (List.mem_map_of_mem ha)
    · exact hperm.mem_iff.mpr (List.mem_map_of_mem hb)
  · intro hc a' ha' b' hb' hid
    obtain ⟨a, ha, rfl⟩ := List.mem_map.mp (hperm.mem_iff.mp ha')
    obtain ⟨b, hb, rfl⟩ := List.mem_map.mp (hperm.mem_iff.mp hb')
    exact (h.same_iff (hsub ha) (hsub hb)).mpr (hc a ha b hb hid)

/-- Permuted inputs correspond. -/
theorem corresponds (h : Reorders order (explicitEntries ++ catalog))
    (hexplicit : explicitEntries'.Perm (explicitEntries.map (ManifestEntry.reorder order)))
    (hcatalog : catalog'.Perm (catalog.map (ManifestEntry.reorder order))) :
    Corresponds (fun e e' => e ∈ explicitEntries ++ catalog ∧ (e.reorder order).Same e') explicitEntries catalog
      explicitEntries' catalog' := by
  have hproviders : ∀ c, (providersOf c catalog').Perm ((providersOf c catalog).map (ManifestEntry.reorder order)) := by
    intro c
    refine (hcatalog.filter _).trans (.of_eq ?_)
    rw [providersOf, List.filter_map]
    rfl
  have hcandidate : ∀ {c p}, providersOf c catalog = [p] → p ∈ explicitEntries ++ catalog := fun hp =>
    List.mem_append_right _ (mem_providersOf.mp (hp ▸ List.mem_cons_self)).1
  refine ⟨?_, ?_, ?_, ?_, ?_, ?_, ?_, ?_⟩
  · rintro e e' ⟨he, hsame⟩
    obtain ⟨hmanifest, horigin⟩ := ManifestEntry.same_iff.mp hsame
    obtain ⟨hid, -, hkind, hrequires, hprovides, hconflicts⟩ := hmanifest.fields
    refine ⟨hid, hkind, ?_, hprovides, hconflicts, ?_⟩
    · exact (h.perm e he).symm.trans (.of_eq hrequires)
    · simp only [ManifestEntry.origin, ManifestEntry.reorder, Prod.mk.injEq] at horigin
      obtain ⟨-, -, -, -, -, hkind, hlocation, hpath⟩ := horigin
      rw [isPackaged, isPackaged, hkind, hlocation, hpath]
  · intro e he
    exact ⟨e.reorder order, hexplicit.mem_iff.mpr (List.mem_map_of_mem he), List.mem_append_left _ he, .refl _⟩
  · intro e' he'
    obtain ⟨e, he, rfl⟩ := List.mem_map.mp (hexplicit.mem_iff.mp he')
    exact ⟨e, he, List.mem_append_left _ he, .refl _⟩
  · intro c p hp
    refine ⟨p.reorder order, ?_, hcandidate hp, .refl _⟩
    have hperm := hproviders c
    rw [hp] at hperm
    exact List.perm_singleton.mp hperm
  · intro c p' hp'
    have hperm := hproviders c
    rw [hp'] at hperm
    obtain ⟨p, hp, rfl⟩ := List.map_eq_singleton_iff.mp (List.perm_singleton.mp hperm.symm)
    exact ⟨p, hp, hcandidate hp, .refl _⟩
  · intro c
    have hlength := (hproviders c).length_eq
    rw [List.length_map] at hlength
    rw [← List.length_eq_zero_iff, ← List.length_eq_zero_iff, hlength]
  · rintro e d e' he hd hsame ⟨-, hR⟩
    refine ⟨List.mem_append_left _ hd, ?_⟩
    exact ((h.same_iff (List.mem_append_left _ hd) (List.mem_append_left _ he)).mpr hsame).trans hR
  · rintro e e' d' - - hsame ⟨he, hR⟩
    exact ⟨he, hR.trans hsame.symm⟩

end Reorders

end SecPlatform.Compiler
