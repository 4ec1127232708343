import SecPlatform.Compiler.Resolve.ManifestGraph
import SecPlatform.Contracts.Lemmas.CanonicalEncoding

/-!
# Definitions that agree

Two definitions agree when they have one canonical value. Agreement fixes the fields the resolver reads;
of the other fields it fixes the canonical form.
-/

namespace SecPlatform.Compiler

open Contracts

/-! ## Lists of texts -/

theorem canonical_textsValue (texts : List Text) : canonical (textsValue texts) = textsValue texts := by
  induction texts with
  | nil => rfl
  | cons t texts ih => simpa [textsValue, canonical, canonicalItems] using ih

theorem textsValue_injective {xs ys : List Text} (h : textsValue xs = textsValue ys) : xs = ys :=
  List.map_injective_iff.mpr (fun _ _ h => Json.str.inj h) (Json.arr.inj h)

/-! ## Manifests -/

namespace BlockManifest

def members (m : BlockManifest) : List (Text × Value) :=
  manifestFields.zip [.str m.id, .str m.version, .str m.kind.toText, textsValue m.requires, textsValue m.provides,
    textsValue m.conflicts] ++ m.details.members

theorem toValue_val (m : BlockManifest) : m.toValue.val = .obj m.members := rfl

theorem nodup_members (m : BlockManifest) : (m.members.map Prod.fst).Nodup := m.details.keys

/-- The definitions have one canonical value. -/
def Same (m n : BlockManifest) : Prop := canonical m.toValue.val = canonical n.toValue.val

theorem canonicalMembers_eq (m : BlockManifest) :
    canonicalMembers m.members =
      manifestFields.zip [.str m.id, .str m.version, .str m.kind.toText, textsValue m.requires,
        textsValue m.provides, textsValue m.conflicts] ++ canonicalMembers m.details.members := by
  simp [members, manifestFields, canonicalMembers, canonical, canonical_textsValue]

theorem toText_injective {k l : ManifestKind} (h : k.toText = l.toText) : k = l := by
  revert h
  cases k <;> cases l <;> decide

theorem Same.fields {m n : BlockManifest} (h : Same m n) :
    m.id = n.id ∧ m.version = n.version ∧ m.kind = n.kind ∧ m.requires = n.requires ∧ m.provides = n.provides ∧
      m.conflicts = n.conflicts := by
  have hget := get?_eq_of_canonical_eq m.nodup_members n.nodup_members h
  have hid : some (canonical (.str m.id)) = some (canonical (.str n.id)) := hget (Text.ofString "id")
  have hversion : some (canonical (.str m.version)) = some (canonical (.str n.version)) :=
    hget (Text.ofString "version")
  have hkind : some (canonical (.str m.kind.toText)) = some (canonical (.str n.kind.toText)) :=
    hget (Text.ofString "kind")
  have hrequires : some (canonical (textsValue m.requires)) = some (canonical (textsValue n.requires)) :=
    hget (Text.ofString "requires")
  have hprovides : some (canonical (textsValue m.provides)) = some (canonical (textsValue n.provides)) :=
    hget (Text.ofString "provides")
  have hconflicts : some (canonical (textsValue m.conflicts)) = some (canonical (textsValue n.conflicts)) :=
    hget (Text.ofString "conflicts")
  simp only [canonical_textsValue, canonical, Option.some.injEq, Json.str.injEq] at *
  exact ⟨hid, hversion, toText_injective hkind, textsValue_injective hrequires, textsValue_injective hprovides,
    textsValue_injective hconflicts⟩

/-- Definitions agree when the fields that are read are equal and the others have one canonical form. -/
theorem same_iff {m n : BlockManifest} :
    Same m n ↔ (m.id = n.id ∧ m.version = n.version ∧ m.kind = n.kind ∧ m.requires = n.requires ∧
      m.provides = n.provides ∧ m.conflicts = n.conflicts) ∧
      (canonicalMembers m.details.members).Perm (canonicalMembers n.details.members) := by
  have hperm : Same m n ↔ (canonicalMembers m.members).Perm (canonicalMembers n.members) :=
    canonical_obj_eq_iff m.nodup_members
  constructor
  · intro h
    refine ⟨h.fields, ?_⟩
    obtain ⟨hid, hversion, hkind, hrequires, hprovides, hconflicts⟩ := h.fields
    rw [hperm, canonicalMembers_eq, canonicalMembers_eq, hid, hversion, hkind, hrequires, hprovides, hconflicts] at h
    exact (List.perm_append_left_iff _).mp h
  · rintro ⟨⟨hid, hversion, hkind, hrequires, hprovides, hconflicts⟩, h⟩
    rw [hperm, canonicalMembers_eq, canonicalMembers_eq, hid, hversion, hkind, hrequires, hprovides, hconflicts]
    exact h.append_left _

end BlockManifest

/-! ## Entries -/

namespace ManifestEntry

/-- The entries have one identity; their diagnostics may differ. -/
def Same (a b : ManifestEntry) : Prop :=
  canonical (selectedManifestIdentity a).val = canonical (selectedManifestIdentity b).val

theorem Same.refl (a : ManifestEntry) : Same a a := rfl

theorem Same.symm {a b : ManifestEntry} (h : Same a b) : Same b a := Eq.symm h

theorem Same.trans {a b c : ManifestEntry} (h : Same a b) (h' : Same b c) : Same a c := Eq.trans h h'

theorem toText_injective_kind {k l : RegistryKind} (h : k.toText = l.toText) : k = l := by
  revert h
  cases k <;> cases l <;> decide

theorem toText_injective_location {k l : RegistryLocation} (h : k.toText = l.toText) : k = l := by
  revert h
  cases k <;> cases l <;> decide

/-- Where an entry comes from: all its fields but the manifest and the diagnostics. -/
def origin (e : ManifestEntry) : Text × Text × List Text × Text × Text × RegistryKind × RegistryLocation × Text :=
  (e.manifestPath, e.manifestRoot, e.resourceRoots, e.registryRoot, e.registrySourceId, e.registryKind,
    e.registryLocation, e.registryPath)

def members (e : ManifestEntry) : List (Text × Value) :=
  identityFields.zip [e.manifest.toValue.val, .str e.manifestPath, .str e.manifestRoot, textsValue e.resourceRoots,
    .str e.registryRoot, .str e.registrySourceId, .str e.registryKind.toText, .str e.registryLocation.toText,
    .str e.registryPath]

theorem identity_val (e : ManifestEntry) : (selectedManifestIdentity e).val = .obj e.members := rfl

theorem nodup_members (e : ManifestEntry) : (e.members.map Prod.fst).Nodup := by
  have hkeys : e.members.map Prod.fst = identityFields := rfl
  rw [hkeys]
  decide

/-- Entries agree when their definitions do and they come from one place. -/
theorem same_iff {a b : ManifestEntry} : Same a b ↔ a.manifest.Same b.manifest ∧ a.origin = b.origin := by
  constructor
  · intro h
    have hget := get?_eq_of_canonical_eq a.nodup_members b.nodup_members h
    have hmanifest : some (canonical a.manifest.toValue.val) = some (canonical b.manifest.toValue.val) :=
      hget (Text.ofString "manifest")
    have hpath : some (canonical (.str a.manifestPath)) = some (canonical (.str b.manifestPath)) :=
      hget (Text.ofString "manifestPath")
    have hroot : some (canonical (.str a.manifestRoot)) = some (canonical (.str b.manifestRoot)) :=
      hget (Text.ofString "manifestRoot")
    have hresources : some (canonical (textsValue a.resourceRoots)) = some (canonical (textsValue b.resourceRoots)) :=
      hget (Text.ofString "resourceRoots")
    have hregistry : some (canonical (.str a.registryRoot)) = some (canonical (.str b.registryRoot)) :=
      hget (Text.ofString "registryRoot")
    have hsource : some (canonical (.str a.registrySourceId)) = some (canonical (.str b.registrySourceId)) :=
      hget (Text.ofString "registrySourceId")
    have hkind : some (canonical (.str a.registryKind.toText)) = some (canonical (.str b.registryKind.toText)) :=
      hget (Text.ofString "registryKind")
    have hlocation : some (canonical (.str a.registryLocation.toText)) =
        some (canonical (.str b.registryLocation.toText)) := hget (Text.ofString "registryLocation")
    have hregistryPath : some (canonical (.str a.registryPath)) = some (canonical (.str b.registryPath)) :=
      hget (Text.ofString "registryPath")
    refine ⟨Option.some.inj hmanifest, ?_⟩
    simp only [canonical_textsValue, canonical, Option.some.injEq, Json.str.injEq] at *
    rw [origin, origin, hpath, hroot, textsValue_injective hresources, hregistry, hsource,
      toText_injective_kind hkind, toText_injective_location hlocation, hregistryPath]
  · rintro ⟨hmanifest, horigin⟩
    simp only [origin, Prod.mk.injEq] at horigin
    obtain ⟨hpath, hroot, hresources, hregistry, hsource, hkind, hlocation, hregistryPath⟩ := horigin
    unfold BlockManifest.Same at hmanifest
    unfold Same
    rw [identity_val, identity_val]
    simp only [members, canonical, identityFields, List.map_cons, List.map_nil, List.zip_cons_cons, List.zip_nil_right,
      canonicalMembers, hmanifest, hpath, hroot, hresources, hregistry, hsource, hkind, hlocation, hregistryPath]

theorem Same.manifest {a b : ManifestEntry} (h : Same a b) : a.manifest.Same b.manifest := (same_iff.mp h).1

theorem Same.id {a b : ManifestEntry} (h : Same a b) : a.manifest.id = b.manifest.id := h.manifest.fields.1

end ManifestEntry

end SecPlatform.Compiler
