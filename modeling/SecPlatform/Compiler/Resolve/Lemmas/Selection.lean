import SecPlatform.Compiler.Resolve.Lemmas.Definitions
import Mathlib.Data.List.Perm.Subperm

/-!
# The selection

What the indexes hold, which entries the worklist adds, and why it has looked at every entry when it ends.
-/

namespace SecPlatform.Compiler

open Contracts

/-! ## Consistent definitions -/

theorem definitionKey_inj {m n : BlockManifest} :
    definitionKey m = definitionKey n ↔ m.id = n.id ∧ m.version = n.version := by
  constructor
  · intro h
    have hvalue := Json.render_injective (v := (Json.arr [.str m.id, .str m.version] : Value))
      (w := Json.arr [.str n.id, .str n.version]) ⟨trivial, trivial, trivial⟩ ⟨trivial, trivial, trivial⟩ h
    simpa using hvalue
  · rintro ⟨hid, hversion⟩
    rw [definitionKey, definitionKey, hid, hversion]

/-- Any two definitions of one version agree. -/
def ConsistentDefinitions (entries : List ManifestEntry) : Prop :=
  ∀ a ∈ entries, ∀ b ∈ entries, a.manifest.id = b.manifest.id → a.manifest.version = b.manifest.version →
    a.manifest.Same b.manifest

/-- The first entry of each definition stands for the others. -/
structure Represents (definitions : OrderedMap Text ManifestEntry) (entries : List ManifestEntry) : Prop where
  covers : ∀ e ∈ entries, ∃ r, definitions.get? (definitionKey e.manifest) = some r ∧ r.manifest.Same e.manifest
  sound : ∀ key r, definitions.get? key = some r → r ∈ entries

theorem Represents.step {definitions definitions' : OrderedMap Text ManifestEntry} {entries : List ManifestEntry}
    {e : ManifestEntry} (h : Represents definitions entries)
    (hstep : assertConsistentDefinition definitions e = .ok definitions') : Represents definitions' (entries ++ [e]) := by
  unfold assertConsistentDefinition at hstep
  cases hfind : definitions.get? (definitionKey e.manifest) with
  | none =>
      rw [hfind] at hstep
      cases hstep
      refine ⟨fun d hd => ?_, fun key r hr => ?_⟩
      · rcases List.mem_append.mp hd with hd | hd
        · obtain ⟨r, hr, hsame⟩ := h.covers d hd
          refine ⟨r, ?_, hsame⟩
          rw [OrderedMap.get?_set_of_ne _ _ fun hkey => by rw [← hkey, hfind] at hr; cases hr]
          exact hr
        · rw [List.mem_singleton.mp hd]
          exact ⟨e, OrderedMap.get?_set_self _ _ _, rfl⟩
      · rw [OrderedMap.get?_set] at hr
        split at hr
        · cases hr
          exact List.mem_append_right _ List.mem_cons_self
        · exact List.mem_append_left _ (h.sound key r hr)
  | some previous =>
      rw [hfind] at hstep
      dsimp only at hstep
      split at hstep
      · rename_i hsame
        cases hstep
        refine ⟨fun d hd => ?_, fun key r hr => List.mem_append_left _ (h.sound key r hr)⟩
        rcases List.mem_append.mp hd with hd | hd
        · exact h.covers d hd
        · rw [List.mem_singleton.mp hd]
          exact ⟨previous, hfind, canonicalEquals_iff.mp hsame⟩
      · cases hstep

theorem assertManifestDefinitionConsistency_eq_ok {entries : List ManifestEntry} :
    assertManifestDefinitionConsistency entries = .ok () ↔ ConsistentDefinitions entries := by
  have hempty : Represents .empty [] := ⟨by simp, by simp⟩
  have hiff : assertManifestDefinitionConsistency entries = .ok () ↔
      ∃ m, entries.foldlM assertConsistentDefinition .empty = .ok m := by
    simp [assertManifestDefinitionConsistency, bind_eq_ok]
  rw [hiff]
  constructor
  · rintro ⟨definitions, hrun⟩ a ha b hb hid hversion
    have h : Represents definitions ([] ++ entries) :=
      foldlM_prefix (P := fun es m => Represents m es) (fun _ _ _ _ h hstep => h.step hstep) hempty hrun
    obtain ⟨r, hr, hra⟩ := h.covers a ha
    obtain ⟨r', hr', hrb⟩ := h.covers b hb
    rw [definitionKey_inj.mpr ⟨hid, hversion⟩, hr'] at hr
    cases hr
    exact hra.symm.trans hrb
  · intro hconsistent
    have hturn : ∀ ys a m, (∀ y ∈ ys ++ [a], y ∈ entries) →
        (Represents m ys ∧ ∀ key r, m.get? key = some r → definitionKey r.manifest = key) →
        ∃ m', assertConsistentDefinition m a = .ok m' ∧
          Represents m' (ys ++ [a]) ∧ ∀ key r, m'.get? key = some r → definitionKey r.manifest = key := by
      rintro ys a m hmem ⟨h, hkeys⟩
      have ha := hmem a (List.mem_append_right _ List.mem_cons_self)
      cases hfind : m.get? (definitionKey a.manifest) with
      | none =>
          have hstep : assertConsistentDefinition m a = .ok (m.set (definitionKey a.manifest) a) := by
            rw [assertConsistentDefinition, hfind]
          refine ⟨_, hstep, h.step hstep, fun key r hr => ?_⟩
          rw [OrderedMap.get?_set] at hr
          split at hr
          · rename_i hkey
            cases hr
            exact hkey
          · exact hkeys key r hr
      | some previous =>
          obtain ⟨hid, hversion⟩ := definitionKey_inj.mp (hkeys _ _ hfind)
          have hprevious := hmem previous (List.mem_append_left _ (h.sound _ _ hfind))
          have hsame := canonicalEquals_iff.mpr (hconsistent previous hprevious a ha hid hversion)
          have hstep : assertConsistentDefinition m a = .ok m := by
            rw [assertConsistentDefinition, hfind]
            exact if_pos hsame
          exact ⟨_, hstep, h.step hstep, hkeys⟩
    obtain ⟨m, hm, -⟩ := foldlM_succeeds hturn ⟨hempty, by simp⟩
    exact ⟨m, hm⟩

/-! ## Providers -/

theorem nodup_eraseDups (xs : List Text) : xs.eraseDups.Nodup := by
  induction hn : xs.length using Nat.strong_induction_on generalizing xs with
  | _ n ih =>
      cases xs with
      | nil => exact List.nodup_nil
      | cons x xs =>
          rw [List.eraseDups_cons, List.nodup_cons]
          refine ⟨by simp, ih _ ?_ _ rfl⟩
          subst hn
          exact Nat.lt_succ_of_le (List.length_filter_le _ _)

/-- The entries that provide a capability. -/
def providersOf (capability : Text) (entries : List ManifestEntry) : List ManifestEntry :=
  entries.filter fun e => capability ∈ e.manifest.provides

theorem mem_providersOf {c : Text} {entries : List ManifestEntry} {e : ManifestEntry} :
    e ∈ providersOf c entries ↔ e ∈ entries ∧ c ∈ e.manifest.provides := by simp [providersOf]

theorem providersOf_append (c : Text) (xs ys : List ManifestEntry) :
    providersOf c (xs ++ ys) = providersOf c xs ++ providersOf c ys := List.filter_append xs ys

theorem get?_addCapability (entry : ManifestEntry) (index : Providers) (capability c : Text) :
    (addCapability entry index capability).get? c =
      if c = capability then some ((index.get? c).getD [] ++ [entry]) else index.get? c := by
  unfold addCapability
  cases hget : index.get? capability with
  | none =>
      rw [OrderedMap.get?_set]
      by_cases hc : c = capability
      · subst hc
        simp [hget]
      · simp [hc, Ne.symm hc]
  | some providers =>
      dsimp only
      rw [OrderedMap.get?_set]
      by_cases hc : c = capability
      · subst hc
        simp [hget]
      · simp [hc, Ne.symm hc]

theorem get?_addProvider (index : Providers) (entry : ManifestEntry) (c : Text) :
    (addProvider index entry).get? c =
      if c ∈ entry.manifest.provides then some ((index.get? c).getD [] ++ [entry]) else index.get? c := by
  have hfold : ∀ (cs : List Text) (index : Providers), cs.Nodup →
      (cs.foldl (addCapability entry) index).get? c =
        if c ∈ cs then some ((index.get? c).getD [] ++ [entry]) else index.get? c := by
    intro cs
    induction cs with
    | nil => simp
    | cons d cs ih =>
        intro index hnodup
        obtain ⟨hd, hnodup⟩ := List.nodup_cons.mp hnodup
        rw [List.foldl_cons, ih _ hnodup, get?_addCapability]
        by_cases hc : c = d
        · subst hc
          simp [hd]
        · simp [hc]
  rw [addProvider, hfold _ _ (nodup_eraseDups _)]
  simp only [List.mem_eraseDups]

/-- The index lists the providers of each capability in the order of the entries. -/
def Indexes (index : Providers) (entries : List ManifestEntry) : Prop :=
  ∀ c, index.get? c = if providersOf c entries = [] then none else some (providersOf c entries)

namespace Indexes

variable {index : Providers} {entries : List ManifestEntry}

theorem empty : Indexes .empty [] := fun _ => rfl

theorem getD (h : Indexes index entries) (c : Text) : (index.get? c).getD [] = providersOf c entries := by
  rw [h c]
  split
  · rename_i hnil
    exact hnil.symm
  · rfl

theorem addProvider (h : Indexes index entries) (entry : ManifestEntry) :
    Indexes (addProvider index entry) (entries ++ [entry]) := by
  intro c
  rw [get?_addProvider, h.getD, providersOf_append]
  by_cases hc : c ∈ entry.manifest.provides
  · have hlast : providersOf c [entry] = [entry] := by simp [providersOf, hc]
    simp [hc, hlast]
  · have hlast : providersOf c [entry] = [] := by simp [providersOf, hc]
    rw [if_neg hc, hlast, List.append_nil]
    exact h c

theorem foldl (h : Indexes index entries) (more : List ManifestEntry) :
    Indexes (more.foldl Compiler.addProvider index) (entries ++ more) := by
  induction more generalizing index entries with
  | nil => simpa using h
  | cons e more ih =>
      rw [List.append_cons]
      exact ih (h.addProvider e)

theorem has_iff (h : Indexes index entries) {c : Text} : index.has c ↔ ∃ e ∈ entries, c ∈ e.manifest.provides := by
  have hnil : providersOf c entries ≠ [] ↔ ∃ e ∈ entries, c ∈ e.manifest.provides := by
    simp [providersOf, List.filter_eq_nil_iff]
  rw [← hnil, OrderedMap.has, h c]
  split <;> simp_all

end Indexes

/-! ## Derivations -/

/-- How a selection comes about: the explicit entries, one for each id, and then one provider after another.
An added provider is packaged with the compiler and the only one in the catalog of something that a selected
entry requires and no selected entry provides. -/
inductive Derived (explicitEntries catalog : List ManifestEntry) : List ManifestEntry → Prop
  | explicit {first} (hsound : ∀ e ∈ first, e ∈ explicitEntries)
      (hcovers : ∀ e ∈ explicitEntries, ∃ r ∈ first, ManifestEntry.Same r e)
      (hids : (first.map fun e => e.manifest.id).Nodup) : Derived explicitEntries catalog first
  | provider {selected} (h : Derived explicitEntries catalog selected) {consumer requirement provider}
      (hconsumer : consumer ∈ selected) (hrequires : requirement ∈ consumer.manifest.requires)
      (hnone : ∀ e ∈ selected, requirement ∉ e.manifest.provides)
      (hunique : providersOf requirement catalog = [provider])
      (hpackaged : Selection.isPackaged provider)
      (hnew : ∀ e ∈ selected, e.manifest.id ≠ provider.manifest.id) :
      Derived explicitEntries catalog (selected ++ [provider])

namespace Derived

variable {explicitEntries catalog selected : List ManifestEntry}

theorem nodup_ids (h : Derived explicitEntries catalog selected) :
    (selected.map fun e => e.manifest.id).Nodup := by
  induction h with
  | explicit _ _ hids => exact hids
  | provider _ _ _ _ _ _ hnew ih =>
      rw [List.map_append, List.nodup_append]
      refine ⟨ih, List.nodup_singleton _, ?_⟩
      simpa using hnew

theorem subset (h : Derived explicitEntries catalog selected) : ∀ e ∈ selected, e ∈ explicitEntries ++ catalog := by
  induction h with
  | explicit hsound => exact fun e he => List.mem_append_left _ (hsound e he)
  | provider _ _ _ _ hunique _ _ ih =>
      intro e he
      rcases List.mem_append.mp he with he | he
      · exact ih e he
      · rw [List.mem_singleton.mp he]
        have hmem := mem_providersOf.mp (hunique ▸ List.mem_cons_self)
        exact List.mem_append_right _ hmem.1

theorem length_le (h : Derived explicitEntries catalog selected) :
    selected.length ≤ explicitEntries.length + catalog.length := by
  have hnodup : selected.Nodup := List.Nodup.of_map _ h.nodup_ids
  simpa using (hnodup.subperm h.subset).length_le

theorem covers (h : Derived explicitEntries catalog selected) :
    ∀ e ∈ explicitEntries, ∃ r ∈ selected, ManifestEntry.Same r e := by
  induction h with
  | explicit _ hcovers => exact hcovers
  | provider _ _ _ _ _ _ _ ih =>
      intro e he
      obtain ⟨r, hr, hsame⟩ := ih e he
      exact ⟨r, List.mem_append_left _ hr, hsame⟩

end Derived

/-! ## The worklist -/

/-- Every requirement of the entry is provided. -/
def Satisfied (entries : List ManifestEntry) (e : ManifestEntry) : Prop :=
  ∀ r ∈ e.manifest.requires, ∃ p ∈ entries, r ∈ p.manifest.provides

theorem Satisfied.mono {xs ys : List ManifestEntry} {e : ManifestEntry} (h : Satisfied xs e) (hsub : xs ⊆ ys) :
    Satisfied ys e := by
  intro r hr
  obtain ⟨p, hp, hprovides⟩ := h r hr
  exact ⟨p, hsub hp, hprovides⟩

namespace Selection

/-- The indexes of a selection hold its queue. -/
structure Coherent (s : Selection) : Prop where
  byId : ∀ id e, s.byId.get? id = some e ↔ e ∈ s.queue ∧ e.manifest.id = id
  providers : Indexes s.selectedProviders s.queue

theorem coherent_empty : Coherent empty := ⟨by simp [empty], Indexes.empty⟩

variable {s s' : Selection}

theorem Coherent.byId_none (h : Coherent s) {id : Text} :
    s.byId.get? id = none ↔ ∀ e ∈ s.queue, e.manifest.id ≠ id := by
  rw [Option.eq_none_iff_forall_ne_some]
  constructor
  · intro hnone e he hid
    exact hnone e ((h.byId id e).mpr ⟨he, hid⟩)
  · intro hnot e he
    obtain ⟨hmem, hid⟩ := (h.byId id e).mp he
    exact hnot e hmem hid

theorem Coherent.select (h : Coherent s) {entry : ManifestEntry} (hnew : s.byId.get? entry.manifest.id = none) :
    Coherent (s.select entry) := by
  refine ⟨fun id e => ?_, h.providers.addProvider entry⟩
  have hnot := h.byId_none.mp hnew
  simp only [Selection.select, OrderedMap.get?_set, List.mem_append, List.mem_singleton]
  by_cases hid : entry.manifest.id = id
  · subst hid
    simp only [if_true, Option.some.injEq]
    constructor
    · rintro rfl
      exact ⟨.inr rfl, rfl⟩
    · rintro ⟨he | he, hid⟩
      · exact absurd hid (hnot e he)
      · exact he.symm
  · rw [if_neg hid, h.byId]
    constructor
    · rintro ⟨he, hid⟩
      exact ⟨.inl he, hid⟩
    · rintro ⟨he | rfl, he'⟩
      · exact ⟨he, he'⟩
      · exact absurd he' hid

/-! ## Explicit entries -/

/-- Any two explicit entries of one block agree. -/
def ConsistentSelections (entries : List ManifestEntry) : Prop :=
  ∀ a ∈ entries, ∀ b ∈ entries, a.manifest.id = b.manifest.id → ManifestEntry.Same a b

/-- The explicit entries so far are selected. -/
structure Explicit (entries : List ManifestEntry) (s : Selection) : Prop where
  coherent : Coherent s
  sound : ∀ e ∈ s.queue, e ∈ entries
  covers : ∀ e ∈ entries, ∃ r ∈ s.queue, ManifestEntry.Same r e
  ids : (s.queue.map fun e => e.manifest.id).Nodup

theorem explicit_empty : Explicit [] empty := ⟨coherent_empty, by simp [empty], by simp, by simp [empty]⟩

theorem Explicit.step {entries : List ManifestEntry} {e : ManifestEntry} (h : Explicit entries s)
    (hstep : s.selectExplicit e = .ok s') : Explicit (entries ++ [e]) s' := by
  unfold selectExplicit at hstep
  cases hfind : s.byId.get? e.manifest.id with
  | none =>
      rw [hfind] at hstep
      cases hstep
      refine ⟨h.coherent.select hfind, fun d hd => ?_, fun d hd => ?_, ?_⟩
      · rcases List.mem_append.mp hd with hd | hd
        · exact List.mem_append_left _ (h.sound d hd)
        · exact List.mem_append_right _ hd
      · rcases List.mem_append.mp hd with hd | hd
        · obtain ⟨r, hr, hsame⟩ := h.covers d hd
          exact ⟨r, List.mem_append_left _ hr, hsame⟩
        · exact ⟨d, List.mem_append_right _ hd, .refl d⟩
      · have hnot := h.coherent.byId_none.mp hfind
        rw [Selection.select, List.map_append, List.nodup_append]
        refine ⟨h.ids, List.nodup_singleton _, ?_⟩
        simpa using hnot
  | some selected =>
      rw [hfind] at hstep
      dsimp only at hstep
      split at hstep
      · rename_i hsame
        cases hstep
        refine ⟨h.coherent, fun d hd => List.mem_append_left _ (h.sound d hd), fun d hd => ?_, h.ids⟩
        rcases List.mem_append.mp hd with hd | hd
        · exact h.covers d hd
        · rw [List.mem_singleton.mp hd]
          exact ⟨selected, ((h.coherent.byId _ _).mp hfind).1, canonicalEquals_iff.mp hsame⟩
      · cases hstep

theorem explicit_of_eq_ok {entries : List ManifestEntry} (h : entries.foldlM selectExplicit empty = .ok s) :
    Explicit entries s := by
  have hrun : Explicit ([] ++ entries) s :=
    foldlM_prefix (P := Explicit) (fun _ _ _ _ h hstep => h.step hstep) explicit_empty h
  exact hrun

theorem consistentSelections_of_explicit {entries : List ManifestEntry} (h : Explicit entries s) :
    ConsistentSelections entries := by
  intro a ha b hb hid
  obtain ⟨r, hr, hra⟩ := h.covers a ha
  obtain ⟨q, hq, hqb⟩ := h.covers b hb
  have hrq : r = q := List.inj_on_of_nodup_map h.ids hr hq (hra.id.trans (hid.trans hqb.id.symm))
  exact hra.symm.trans (hrq ▸ hqb)

theorem explicit_succeeds {entries : List ManifestEntry} (h : ConsistentSelections entries) :
    ∃ s, entries.foldlM selectExplicit empty = .ok s := by
  have hturn : ∀ ys a t, (∀ y ∈ ys ++ [a], y ∈ entries) → Explicit ys t →
      ∃ t', t.selectExplicit a = .ok t' ∧ Explicit (ys ++ [a]) t' := by
    intro ys a t hmem ht
    cases hfind : t.byId.get? a.manifest.id with
    | none =>
        have hstep : t.selectExplicit a = .ok (t.select a) := by rw [selectExplicit, hfind]
        exact ⟨_, hstep, ht.step hstep⟩
    | some selected =>
        obtain ⟨hselected, hid⟩ := (ht.coherent.byId _ _).mp hfind
        have hsame := canonicalEquals_iff.mpr (h selected (hmem _ (List.mem_append_left _ (ht.sound _ hselected))) a
          (hmem _ (List.mem_append_right _ List.mem_cons_self)) hid)
        have hstep : t.selectExplicit a = .ok t := by
          rw [selectExplicit, hfind]
          exact if_pos hsame
        exact ⟨_, hstep, ht.step hstep⟩
  obtain ⟨s, hs, -⟩ := foldlM_succeeds hturn explicit_empty
  exact ⟨s, hs⟩

/-! ## Closing -/

/-- A selection under way. -/
structure Closing (explicitEntries catalog : List ManifestEntry) (s : Selection) : Prop where
  coherent : Coherent s
  derived : Derived explicitEntries catalog s.queue

theorem Explicit.closing {entries catalog : List ManifestEntry} (h : Explicit entries s) : Closing entries catalog s :=
  ⟨h.coherent, .explicit h.sound h.covers h.ids⟩

variable {explicitEntries catalog : List ManifestEntry} {catalogProviders : Providers} {entry : ManifestEntry}
  {requirement : Text}

/-- A requirement that is met leaves the selection; another one adds its only provider. -/
theorem require_eq_ok_iff (hcatalog : Indexes catalogProviders catalog) (hs : Coherent s) :
    Selection.require catalogProviders entry s requirement = .ok s' ↔
      ((∃ e ∈ s.queue, requirement ∈ e.manifest.provides) ∧ s' = s) ∨
      ((∀ e ∈ s.queue, requirement ∉ e.manifest.provides) ∧ ∃ provider, providersOf requirement catalog = [provider] ∧
        s.byId.get? provider.manifest.id = none ∧ isPackaged provider ∧ s' = s.select provider) := by
  have hhas := hs.providers.has_iff (c := requirement)
  unfold Selection.require
  rw [hcatalog.getD]
  by_cases hprovided : ∃ e ∈ s.queue, requirement ∈ e.manifest.provides
  · rw [if_pos (hhas.mpr hprovided)]
    constructor
    · intro h
      exact .inl ⟨hprovided, (Except.ok.inj h).symm⟩
    · rintro (⟨-, rfl⟩ | ⟨hnone, -⟩)
      · rfl
      · obtain ⟨e, he, hmem⟩ := hprovided
        exact absurd hmem (hnone e he)
  · have hnone : ∀ e ∈ s.queue, requirement ∉ e.manifest.provides := fun e he hmem => hprovided ⟨e, he, hmem⟩
    rw [if_neg fun h => hprovided (hhas.mp h)]
    match hproviders : providersOf requirement catalog with
    | [] => simp [hprovided]
    | [provider] =>
        cases hfind : s.byId.get? provider.manifest.id with
        | some => simp [hprovided, hfind]
        | none =>
            by_cases hpackaged : isPackaged provider
            · simp only [hfind, hpackaged, if_true, Except.ok.injEq]
              constructor
              · intro h
                exact .inr ⟨hnone, provider, rfl, hfind, hpackaged, h.symm⟩
              · rintro (⟨hsome, -⟩ | ⟨-, _, heq, -, -, rfl⟩)
                · exact absurd hsome hprovided
                · rw [List.singleton_inj.mp heq]
            · simp [hprovided, hfind, hpackaged]
    | _ :: _ :: _ => simp [hprovided]

theorem Closing.require (h : Closing explicitEntries catalog s) (hcatalog : Indexes catalogProviders catalog)
    (hentry : entry ∈ s.queue) (hmem : requirement ∈ entry.manifest.requires)
    (hstep : Selection.require catalogProviders entry s requirement = .ok s') :
    Closing explicitEntries catalog s' ∧ s.queue <+: s'.queue ∧ ∃ p ∈ s'.queue, requirement ∈ p.manifest.provides := by
  rcases (require_eq_ok_iff hcatalog h.coherent).mp hstep with ⟨hprovided, rfl⟩ | ⟨hnone, p, hunique, hnew, hpackaged, rfl⟩
  · exact ⟨h, List.prefix_rfl, hprovided⟩
  · have hp := mem_providersOf.mp (hunique ▸ List.mem_cons_self : p ∈ providersOf requirement catalog)
    refine ⟨⟨h.coherent.select hnew, ?_⟩, List.prefix_append _ _, p, List.mem_append_right _ List.mem_cons_self, hp.2⟩
    exact .provider h.derived hentry hmem hnone hunique hpackaged (h.coherent.byId_none.mp hnew)

theorem Closing.requirements (h : Closing explicitEntries catalog s) (hcatalog : Indexes catalogProviders catalog)
    (hentry : entry ∈ s.queue)
    (hrun : entry.manifest.requires.foldlM (Selection.require catalogProviders entry) s = .ok s') :
    Closing explicitEntries catalog s' ∧ s.queue <+: s'.queue ∧ Satisfied s'.queue entry := by
  have hloop : ∀ (rs : List Text) (t : Selection), (∀ r ∈ rs, r ∈ entry.manifest.requires) →
      Closing explicitEntries catalog t → entry ∈ t.queue →
      rs.foldlM (Selection.require catalogProviders entry) t = .ok s' →
      Closing explicitEntries catalog s' ∧ t.queue <+: s'.queue ∧ ∀ r ∈ rs, ∃ p ∈ s'.queue, r ∈ p.manifest.provides := by
    intro rs
    induction rs with
    | nil =>
        intro t _ ht _ hrun
        cases hrun
        exact ⟨ht, List.prefix_rfl, by simp⟩
    | cons r rs ih =>
        intro t hrs ht hentry hrun
        rw [List.foldlM_cons, bind_eq_ok] at hrun
        obtain ⟨u, hu, hrun⟩ := hrun
        obtain ⟨hclosing, hstays, p, hp, hprovides⟩ := ht.require hcatalog hentry (hrs r List.mem_cons_self) hu
        obtain ⟨hend, hlater, hrest⟩ :=
          ih u (fun q hq => hrs q (List.mem_cons_of_mem _ hq)) hclosing (hstays.subset hentry) hrun
        refine ⟨hend, hstays.trans hlater, fun q hq => ?_⟩
        rcases List.mem_cons.mp hq with rfl | hq
        · exact ⟨p, hlater.subset hp, hprovides⟩
        · exact hrest q hq
  exact hloop _ s (fun _ hr => hr) h hentry hrun

/-- The worklist ends with every requirement of every selected entry provided; the fuel covers the selection. -/
theorem Closing.close (hcatalog : Indexes catalogProviders catalog) {fuel index : Nat}
    (hfuel : explicitEntries.length + catalog.length ≤ index + fuel) (h : Closing explicitEntries catalog s)
    (hdone : ∀ e ∈ s.queue.take index, Satisfied s.queue e)
    (hrun : Selection.close catalogProviders fuel index s = .ok s') :
    Closing explicitEntries catalog s' ∧ s.queue <+: s'.queue ∧ ∀ e ∈ s'.queue, Satisfied s'.queue e := by
  have hlength := h.derived.length_le
  induction fuel generalizing index s with
  | zero =>
      cases hrun
      rw [List.take_of_length_le (by omega)] at hdone
      exact ⟨h, List.prefix_rfl, hdone⟩
  | succ fuel ih =>
      unfold Selection.close at hrun
      cases hget : s.queue[index]? with
      | none =>
          rw [hget] at hrun
          cases hrun
          rw [List.take_of_length_le (List.getElem?_eq_none_iff.mp hget)] at hdone
          exact ⟨h, List.prefix_rfl, hdone⟩
      | some entry =>
          rw [hget] at hrun
          obtain ⟨t, ht, hrun⟩ := bind_eq_ok.mp hrun
          obtain ⟨hclosing, ⟨more, hmore⟩, hsatisfied⟩ := h.requirements hcatalog (List.mem_of_getElem? hget) ht
          have hindex : index < s.queue.length := (List.getElem?_eq_some_iff.mp hget).1
          have hnext : ∀ e ∈ t.queue.take (index + 1), Satisfied t.queue e := by
            intro e he
            rw [← hmore, List.take_append_of_le_length (by omega), List.take_add_one, hget] at he
            rcases List.mem_append.mp he with he | he
            · exact (hdone e he).mono (hmore ▸ List.subset_append_left _ _)
            · obtain rfl : e = entry := by simpa using he
              exact hsatisfied
          obtain ⟨hend, hstays, hall⟩ := ih (by omega) hclosing hnext hrun hclosing.derived.length_le
          exact ⟨hend, (hmore ▸ List.prefix_append s.queue more).trans hstays, hall⟩

end Selection

end SecPlatform.Compiler
