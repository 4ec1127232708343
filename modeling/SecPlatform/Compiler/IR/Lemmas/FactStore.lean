import SecPlatform.Compiler.IR.FactStore
import SecPlatform.Compiler.IR.Lemmas.FactIdentity
import SecPlatform.Library.Related

/-!
# Normal metadata does not depend on the order

A list of records is refused when two of them share a key and are not written alike. Else the result is the list of the
records without repetition, sorted by their keys.
-/

namespace SecPlatform.Compiler.IR

open Contracts Semantics

/-! ## Records -/

theorem fields_of_metadataWireFields {record : MetadataRecord} {data : List (Text × Text)}
    (h : record.metadataWireFields = some data) : record.fields = data.map fun field => (field.1, some field.2) := by
  obtain ⟨fields, nodup⟩ := record
  simp only [MetadataRecord.metadataWireFields] at h ⊢
  clear nodup
  induction fields generalizing data with
  | nil =>
      obtain rfl : data = [] := by simpa using h.symm
      rfl
  | cons field fields ih =>
      obtain ⟨name, value⟩ := field
      simp only [List.mapM_cons, Option.bind_eq_bind, Option.bind_eq_some_iff, Option.map_eq_some_iff] at h
      obtain ⟨_, ⟨text, rfl, rfl⟩, rest, hrest, hdata⟩ := h
      obtain rfl := Option.some.inj hdata
      rw [ih hrest]
      rfl

/-- Records under one key are written alike, and hold text only. -/
def Agree (keyOf : MetadataRecord → MetadataTuple) (a b : MetadataRecord) : Prop :=
  keyOf a = keyOf b → ∃ data, a.metadataWireFields = some data ∧ b.metadataWireFields = some data

variable {keyOf : MetadataRecord → MetadataTuple}

theorem Agree.symm {a b : MetadataRecord} (h : Agree keyOf a b) : Agree keyOf b a := fun hkey =>
  let ⟨data, ha, hb⟩ := h hkey.symm
  ⟨data, hb, ha⟩

theorem Agree.eq {a b : MetadataRecord} (h : Agree keyOf a b) (hkey : keyOf a = keyOf b) : a = b := by
  obtain ⟨data, ha, hb⟩ := h hkey
  have hfields := (fields_of_metadataWireFields ha).trans (fields_of_metadataWireFields hb).symm
  obtain ⟨fields, _⟩ := a
  obtain ⟨fields', _⟩ := b
  obtain rfl : fields = fields' := hfields
  rfl

/-! ## Keys -/

theorem tupleText_injective : Function.Injective tupleText := by
  intro tuple tuple' h
  have hexact {f : Option Text → Value} (hf : ∀ component, (f component).Exact) (tuple : MetadataTuple) :
      Json.ExactItems (tuple.map f) := by
    induction tuple with
    | nil => trivial
    | cons component tuple ih => exact ⟨hf component, ih⟩
  unfold tupleText at h
  refine List.map_injective_iff.mpr (fun a b hab => ?_)
    (Json.arr.inj (Json.render_injective (hexact ?_ tuple) (hexact ?_ tuple') h))
  · cases a <;> cases b <;> simp_all
  all_goals
    intro component
    cases component <;> trivial

/-! ## The loop -/

/-- What the map of the loop holds after some values. -/
def Claimed (keyOf : MetadataRecord → MetadataTuple) (values : List MetadataRecord) (m : OrderedMap Text MetadataRecord) :
    Prop :=
  ∀ key record, m.get? key = some record ↔ record ∈ values ∧ key = tupleText (keyOf record)

theorem Claimed.of_claimKey {values : List MetadataRecord} {m m' : OrderedMap Text MetadataRecord}
    {value : MetadataRecord} (h : Claimed keyOf values m) (hclaim : claimKey keyOf m value = .ok m') :
    (∀ record ∈ values, Agree keyOf record value) ∧ Claimed keyOf (values ++ [value]) m' := by
  unfold claimKey at hclaim
  dsimp only at hclaim
  split at hclaim
  · rename_i hnone
    obtain rfl := Except.ok.inj hclaim
    have hfree (record : MetadataRecord) (hrecord : record ∈ values) : tupleText (keyOf value) ≠ tupleText (keyOf record) := by
      intro hkey
      rw [hkey, (h _ record).mpr ⟨hrecord, rfl⟩] at hnone
      cases hnone
    refine ⟨fun record hrecord hkey => absurd (congrArg tupleText hkey.symm) (hfree record hrecord), fun key record => ?_⟩
    rw [OrderedMap.get?_set, List.mem_append, List.mem_singleton]
    split
    · rename_i hkey
      subst hkey
      constructor
      · rintro hvalue
        obtain rfl := Option.some.inj hvalue
        exact ⟨.inr rfl, rfl⟩
      · rintro ⟨hrecord | rfl, hkey⟩
        · exact absurd hkey (hfree record hrecord)
        · rfl
    · rename_i hkey
      rw [h key record]
      constructor
      · rintro ⟨hrecord, heq⟩
        exact ⟨.inl hrecord, heq⟩
      · rintro ⟨hrecord | rfl, heq⟩
        · exact ⟨hrecord, heq⟩
        · exact absurd heq.symm hkey
  · rename_i previous hprevious
    obtain ⟨hmem, hkey⟩ := (h _ previous).mp hprevious
    split at hclaim
    · rename_i before current hbefore hcurrent
      split at hclaim
      · rename_i hdata
        subst hdata
        obtain rfl := Except.ok.inj hclaim
        have hagree : Agree keyOf previous value := fun _ => ⟨before, hbefore, hcurrent⟩
        obtain rfl := hagree.eq (tupleText_injective hkey.symm)
        refine ⟨fun record hrecord heq => ?_, fun key record => ?_⟩
        · have hsame := (h _ record).mpr ⟨hrecord, rfl⟩
          rw [heq, hprevious] at hsame
          obtain rfl := Option.some.inj hsame
          exact ⟨before, hbefore, hbefore⟩
        · rw [h key record, List.mem_append, List.mem_singleton]
          refine and_congr_left fun _ => (or_iff_left_of_imp ?_).symm
          rintro rfl
          exact hmem
      · cases hclaim
    · cases hclaim

theorem Claimed.exists_claimKey {values : List MetadataRecord} {m : OrderedMap Text MetadataRecord}
    {value : MetadataRecord} (h : Claimed keyOf values m) (hagree : ∀ record ∈ values, Agree keyOf record value) :
    ∃ m', claimKey keyOf m value = .ok m' := by
  unfold claimKey
  dsimp only
  split
  · exact ⟨_, rfl⟩
  · rename_i previous hprevious
    obtain ⟨hmem, hkey⟩ := (h _ previous).mp hprevious
    obtain ⟨data, hbefore, hcurrent⟩ := hagree previous hmem (tupleText_injective hkey.symm)
    rw [hbefore, hcurrent]
    exact ⟨m, if_pos rfl⟩

theorem claimed_empty : Claimed keyOf [] OrderedMap.empty := fun key record => by simp

theorem claimed_of_foldlM {values : List MetadataRecord} {m : OrderedMap Text MetadataRecord}
    (h : values.foldlM (claimKey keyOf) OrderedMap.empty = .ok m) :
    values.Pairwise (Agree keyOf) ∧ Claimed keyOf values m :=
  foldlM_pairwise (fun _ _ _ _ hclaimed hclaim => hclaimed.of_claimKey hclaim) claimed_empty h

/-! ## The result -/

/-- A list of records whose keys increase. -/
def KeySorted (keyOf : MetadataRecord → MetadataTuple) (values : List MetadataRecord) : Prop :=
  values.Pairwise fun a b => keyOf a < keyOf b

theorem KeySorted.eq {values others : List MetadataRecord} (h : KeySorted keyOf values) (h' : KeySorted keyOf others)
    (hmem : ∀ record, record ∈ values ↔ record ∈ others) : values = others := by
  have hperm : values.Perm others := by
    refine (List.perm_ext_iff_of_nodup ?_ ?_).mpr hmem
    · exact h.imp fun hlt heq => absurd (congrArg keyOf heq) (ne_of_lt hlt)
    · exact h'.imp fun hlt heq => absurd (congrArg keyOf heq) (ne_of_lt hlt)
  exact hperm.eq_of_pairwise (fun a b _ _ hab hba => absurd (hab.trans hba) (lt_irrefl _)) h h'

theorem Claimed.mem_values {values : List MetadataRecord} {m : OrderedMap Text MetadataRecord}
    (h : Claimed keyOf values m) (record : MetadataRecord) : record ∈ m.values ↔ record ∈ values := by
  rw [OrderedMap.mem_values]
  exact ⟨fun ⟨key, hkey⟩ => ((h key record).mp hkey).1, fun hrecord => ⟨_, (h _ record).mpr ⟨hrecord, rfl⟩⟩⟩

theorem Claimed.nodup_values {values : List MetadataRecord} {m : OrderedMap Text MetadataRecord}
    (h : Claimed keyOf values m) : (m.values.map keyOf).Nodup := by
  have hkeys := m.nodup_values_map (f := fun record => tupleText (keyOf record)) fun entry hentry =>
    ((h entry.1 entry.2).mp (OrderedMap.get?_eq_some.mpr hentry)).2.symm
  rw [← Function.comp_def, ← List.map_map] at hkeys
  exact hkeys.of_map

theorem normalize_eq_ok {values out : List MetadataRecord} (h : uniqueSortedMetadataByKey keyOf values = .ok out) :
    values.Pairwise (Agree keyOf) ∧ KeySorted keyOf out ∧ ∀ record, record ∈ out ↔ record ∈ values := by
  obtain ⟨m, hm, h⟩ := bind_eq_ok.mp h
  obtain rfl := Except.ok.inj h
  obtain ⟨hpairwise, hclaimed⟩ := claimed_of_foldlM hm
  have hperm : (sortBy keyOf ((sortBy Prod.fst m.entries).map Prod.snd)).Perm m.values :=
    (sortBy_perm _).trans ((sortBy_perm _).map _)
  refine ⟨hpairwise, sortBy_strict ?_, fun record => hperm.mem_iff.trans (hclaimed.mem_values record)⟩
  exact (((sortBy_perm _).map Prod.snd).map keyOf).nodup_iff.mpr hclaimed.nodup_values

theorem exists_normalize {values : List MetadataRecord} (h : values.Pairwise (Agree keyOf)) :
    ∃ out, uniqueSortedMetadataByKey keyOf values = .ok out := by
  obtain ⟨m, hm⟩ := foldlM_of_pairwise (fun _ _ _ _ hclaimed hclaim => Claimed.of_claimKey hclaimed hclaim)
    (fun _ _ _ _ hclaimed hagree => Claimed.exists_claimKey hclaimed hagree) claimed_empty h
  exact ⟨_, bind_eq_ok.mpr ⟨m, hm, rfl⟩⟩

end SecPlatform.Compiler.IR

/-!
## What a store holds of the facts placed in it

Facts can be placed one after the other exactly when any two of them agree. The store then holds a fact for each id, with
an assertion for each id of an assertion, whose evidence is that of all of them. None of this depends on the order.
-/

namespace SecPlatform.Compiler.IR

open Contracts Semantics

/-! ### Agreement -/

/-- Two assertions with one id can stand for each other. -/
structure SameClaim (a b : StoredAssertion) : Prop where
  authority : a.authority = b.authority
  provenance : provenanceText a.provenance = provenanceText b.provenance
  confidence : a.confidence.strictEquals b.confidence = true

theorem strictEquals_iff {n m : JsNumber} :
    n.strictEquals m = true ↔ n ≠ .nan ∧ (n = m ∨ ∃ a b, n = .zero a ∧ m = .zero b) := by
  cases n <;> cases m <;> simp [JsNumber.strictEquals]

theorem SameClaim.symm {a b : StoredAssertion} (h : SameClaim a b) : SameClaim b a := by
  refine ⟨h.authority.symm, h.provenance.symm, strictEquals_iff.mpr ?_⟩
  obtain ⟨hnan, heq | ⟨x, y, hx, hy⟩⟩ := strictEquals_iff.mp h.confidence
  · exact ⟨heq ▸ hnan, .inl heq.symm⟩
  · exact ⟨by rw [hy]; nofun, .inr ⟨y, x, hy, hx⟩⟩

theorem SameClaim.trans {a b c : StoredAssertion} (h : SameClaim a b) (h' : SameClaim b c) : SameClaim a c := by
  refine ⟨h.authority.trans h'.authority, h.provenance.trans h'.provenance, strictEquals_iff.mpr ?_⟩
  obtain ⟨hnan, heq | ⟨x, y, hx, hy⟩⟩ := strictEquals_iff.mp h.confidence
  · rw [heq]
    exact strictEquals_iff.mp h'.confidence
  · refine ⟨hnan, .inr ⟨x, ?_⟩⟩
    obtain ⟨_, heq | ⟨z, w, _, hw⟩⟩ := strictEquals_iff.mp h'.confidence
    · exact ⟨y, hx, heq ▸ hy⟩
    · exact ⟨w, hx, hw⟩

/-- Two assertions that merge when they have one id. -/
def AgreeAssertions (a b : StoredAssertion) : Prop :=
  a.id = b.id → SameClaim a b ∧ ∀ e ∈ a.evidence, ∀ e' ∈ b.evidence, Agree evidenceKey e e'

/-- Two facts that merge when they have one id. -/
def AgreeFacts (f g : StoredFact) : Prop :=
  f.id = g.id → identityOf f.subject f.predicate f.object = identityOf g.subject g.predicate g.object ∧
    ∀ a ∈ f.assertions, ∀ b ∈ g.assertions, AgreeAssertions a b

theorem AgreeAssertions.symm {a b : StoredAssertion} (h : AgreeAssertions a b) : AgreeAssertions b a := fun hid =>
  let ⟨hclaim, hevidence⟩ := h hid.symm
  ⟨hclaim.symm, fun e he e' he' => (hevidence e' he' e he).symm⟩

theorem AgreeFacts.symm {f g : StoredFact} (h : AgreeFacts f g) : AgreeFacts g f := fun hid =>
  let ⟨hidentity, hassertions⟩ := h hid.symm
  ⟨hidentity.symm, fun a ha b hb => (hassertions b hb a ha).symm⟩

/-! ### Assertions -/

/-- An assertion that stands for those of a list that have its id. -/
structure Gathers (sources : List StoredAssertion) (a : StoredAssertion) : Prop where
  source : ∃ b ∈ sources, b.id = a.id ∧ a = { b with evidence := a.evidence }
  claim : ∀ b ∈ sources, b.id = a.id → SameClaim b a
  sorted : KeySorted evidenceKey a.evidence
  evidence : ∀ e, e ∈ a.evidence ↔ ∃ b ∈ sources, b.id = a.id ∧ e ∈ b.evidence

/-- The assertions under their ids, one for each id of the list. -/
structure GathersAll (sources : List StoredAssertion) (assertions : OrderedMap Text StoredAssertion) : Prop where
  keyed : ∀ id a, assertions.get? id = some a → a.id = id ∧ Gathers sources a
  covers : ∀ b ∈ sources, ∃ a, assertions.get? b.id = some a

theorem KeySorted.agree {keyOf : MetadataRecord → MetadataTuple} {values : List MetadataRecord}
    (h : KeySorted keyOf values) : values.Pairwise (Agree keyOf) :=
  List.Pairwise.imp (fun hlt heq => absurd heq (ne_of_lt hlt)) h

theorem mergeAssertion_eq_ok {a b m : StoredAssertion} (h : mergeAssertion a b = .ok m) :
    SameClaim a b ∧ (∀ e ∈ a.evidence, ∀ e' ∈ b.evidence, Agree evidenceKey e e') ∧
      m = { a with evidence := m.evidence } ∧ KeySorted evidenceKey m.evidence ∧
      ∀ e, e ∈ m.evidence ↔ e ∈ a.evidence ∨ e ∈ b.evidence := by
  obtain ⟨_, hidentity, h⟩ := bind_eq_ok.mp h
  obtain ⟨_, hconfidence, h⟩ := bind_eq_ok.mp h
  obtain ⟨evidence, hevidence, h⟩ := bind_eq_ok.mp h
  obtain rfl := Except.ok.inj h
  obtain ⟨hpairwise, hsorted, hmem⟩ := normalize_eq_ok hevidence
  have hsame := require_eq_ok.mp hidentity
  push Not at hsame
  exact ⟨⟨hsame.2.1, hsame.2.2, require_eq_ok.mp hconfidence⟩, (List.pairwise_append.mp hpairwise).2.2, rfl, hsorted,
    fun e => (hmem e).trans List.mem_append⟩

theorem exists_mergeAssertion {a b : StoredAssertion} (hid : a.id = b.id) (hclaim : SameClaim a b)
    (ha : KeySorted evidenceKey a.evidence) (hb : KeySorted evidenceKey b.evidence)
    (hcross : ∀ e ∈ a.evidence, ∀ e' ∈ b.evidence, Agree evidenceKey e e') : ∃ m, mergeAssertion a b = .ok m := by
  obtain ⟨evidence, hevidence⟩ := exists_normalize (List.pairwise_append.mpr ⟨ha.agree, hb.agree, hcross⟩)
  have hsame : ¬(a.id ≠ b.id ∨ a.authority ≠ b.authority ∨ provenanceText a.provenance ≠ provenanceText b.provenance) := by
    push Not
    exact ⟨hid, hclaim.authority, hclaim.provenance⟩
  refine ⟨{ a with evidence }, bind_eq_ok.mpr ⟨(), require_eq_ok.mpr hsame, ?_⟩⟩
  exact bind_eq_ok.mpr ⟨(), require_eq_ok.mpr hclaim.confidence, bind_eq_ok.mpr ⟨evidence, hevidence, rfl⟩⟩

/-- What an assertion of an input brings along. -/
structure IsClaim (b : StoredAssertion) : Prop where
  confidence : b.confidence ≠ .nan
  sorted : KeySorted evidenceKey b.evidence
  fresh : b.validFromRevision = "build"

theorem IsClaim.same {b : StoredAssertion} (h : IsClaim b) : SameClaim b b :=
  ⟨rfl, rfl, strictEquals_iff.mpr ⟨h.confidence, .inl rfl⟩⟩

theorem Gathers.append {sources : List StoredAssertion} {a b : StoredAssertion} (h : Gathers sources a)
    (hne : b.id ≠ a.id) : Gathers (sources ++ [b]) a := by
  have hmem {P : StoredAssertion → Prop} :
      (∃ c ∈ sources ++ [b], c.id = a.id ∧ P c) ↔ ∃ c ∈ sources, c.id = a.id ∧ P c := by
    constructor
    · rintro ⟨c, hc, hid, hP⟩
      rcases List.mem_append.mp hc with hc | hc
      · exact ⟨c, hc, hid, hP⟩
      · exact absurd (List.mem_singleton.mp hc ▸ hid) hne
    · exact fun ⟨c, hc, hid, hP⟩ => ⟨c, List.mem_append_left _ hc, hid, hP⟩
  refine ⟨hmem.mpr h.source, fun c hc hid => ?_, h.sorted, fun e => (h.evidence e).trans hmem.symm⟩
  rcases List.mem_append.mp hc with hc | hc
  · exact h.claim c hc hid
  · exact absurd (List.mem_singleton.mp hc ▸ hid) hne

theorem Gathers.single {sources : List StoredAssertion} {b : StoredAssertion} (hb : IsClaim b)
    (hfree : ∀ c ∈ sources, c.id ≠ b.id) : Gathers (sources ++ [b]) b := by
  have hmem (c : StoredAssertion) (hc : c ∈ sources ++ [b]) (hid : c.id = b.id) : c = b :=
    (List.mem_append.mp hc).elim (fun hc => absurd hid (hfree c hc)) List.mem_singleton.mp
  refine ⟨⟨b, by simp, rfl, rfl⟩, fun c hc hid => hmem c hc hid ▸ hb.same, hb.sorted, fun e => ?_⟩
  exact ⟨fun he => ⟨b, by simp, rfl, he⟩, fun ⟨c, hc, hid, he⟩ => hmem c hc hid ▸ he⟩

theorem Gathers.merge {sources : List StoredAssertion} {a b m : StoredAssertion} (h : Gathers sources a)
    (hid : a.id = b.id) (hm : mergeAssertion a b = .ok m) :
    (∀ c ∈ sources, AgreeAssertions c b) ∧ m.id = b.id ∧ Gathers (sources ++ [b]) m := by
  obtain ⟨hclaim, hcross, hmerged, hsorted, hevidence⟩ := mergeAssertion_eq_ok hm
  have hmid : m.id = a.id := by rw [hmerged]
  have hsame : SameClaim a m := by
    rw [hmerged]
    exact ⟨rfl, rfl, (hclaim.trans hclaim.symm).confidence⟩
  refine ⟨fun c hc hcb => ⟨(h.claim c hc (hcb.trans hid.symm)).trans hclaim, fun e he => ?_⟩, hmid.trans hid, ?_, ?_,
    hsorted, fun e => ?_⟩
  · exact hcross e ((h.evidence e).mpr ⟨c, hc, hcb.trans hid.symm, he⟩)
  · obtain ⟨c, hc, hca, heq⟩ := h.source
    refine ⟨c, List.mem_append_left _ hc, hca.trans hmid.symm, hmerged.trans ?_⟩
    rw [heq]
  · intro c hc hcm
    rcases List.mem_append.mp hc with hc | hc
    · exact (h.claim c hc (hcm.trans hmid)).trans hsame
    · obtain rfl := List.mem_singleton.mp hc
      exact hclaim.symm.trans hsame
  · rw [hevidence, h.evidence]
    constructor
    · rintro (⟨c, hc, hca, he⟩ | he)
      · exact ⟨c, List.mem_append_left _ hc, hca.trans hmid.symm, he⟩
      · exact ⟨b, by simp, (hmid.trans hid).symm, he⟩
    · rintro ⟨c, hc, hcm, he⟩
      rcases List.mem_append.mp hc with hc | hc
      · exact .inl ⟨c, hc, hcm.trans hmid, he⟩
      · exact .inr (List.mem_singleton.mp hc ▸ he)

theorem GathersAll.of_place {sources : List StoredAssertion} {m m' : OrderedMap Text StoredAssertion}
    {b : StoredAssertion} (h : GathersAll sources m) (hb : IsClaim b) (hplace : placeAssertion m b = .ok m') :
    (∀ c ∈ sources, AgreeAssertions c b) ∧ GathersAll (sources ++ [b]) m' := by
  -- the other ids keep their assertions
  have hset (a : StoredAssertion) (hid : a.id = b.id) (ha : Gathers (sources ++ [b]) a) :
      GathersAll (sources ++ [b]) (m.set b.id a) := by
    refine ⟨fun id other hget => ?_, fun c hc => ?_⟩
    · rw [OrderedMap.get?_set] at hget
      split at hget
      · rename_i heq
        obtain rfl := Option.some.inj hget
        exact ⟨hid.trans heq, ha⟩
      · rename_i hne
        obtain ⟨hother, hgathers⟩ := h.keyed id other hget
        exact ⟨hother, hgathers.append (hother ▸ hne)⟩
    · rw [OrderedMap.get?_set]
      split
      · exact ⟨a, rfl⟩
      · rename_i hne
        exact (List.mem_append.mp hc).elim (h.covers c) fun hc => absurd (List.mem_singleton.mp hc ▸ rfl) hne
  unfold placeAssertion at hplace
  split at hplace
  · rename_i current hcurrent
    obtain ⟨merged, hmerge, hplace⟩ := bind_eq_ok.mp hplace
    obtain rfl := Except.ok.inj hplace
    obtain ⟨hid, hgathers⟩ := h.keyed _ _ hcurrent
    obtain ⟨hagree, hmid, hmerged⟩ := hgathers.merge hid hmerge
    exact ⟨hagree, hset merged hmid hmerged⟩
  · rename_i hnone
    obtain rfl := Except.ok.inj hplace
    have hfree (c : StoredAssertion) (hc : c ∈ sources) : c.id ≠ b.id := by
      intro heq
      obtain ⟨a, ha⟩ := h.covers c hc
      rw [heq, hnone] at ha
      cases ha
    exact ⟨fun c hc heq => absurd heq (hfree c hc), hset b rfl (.single hb hfree)⟩

theorem GathersAll.exists_place {sources : List StoredAssertion} {m : OrderedMap Text StoredAssertion}
    {b : StoredAssertion} (h : GathersAll sources m) (hb : IsClaim b)
    (hagree : ∀ c ∈ sources, AgreeAssertions c b) : ∃ m', placeAssertion m b = .ok m' := by
  unfold placeAssertion
  split
  · rename_i current hcurrent
    obtain ⟨hid, hgathers⟩ := h.keyed _ _ hcurrent
    obtain ⟨c, hc, hca, _⟩ := hgathers.source
    have hclaim : SameClaim current b :=
      (hgathers.claim c hc hca).symm.trans (hagree c hc (hca.trans hid)).1
    obtain ⟨merged, hmerge⟩ := exists_mergeAssertion hid hclaim hgathers.sorted hb.sorted fun e he e' he' => by
      obtain ⟨d, hd, hda, hde⟩ := (hgathers.evidence e).mp he
      exact (hagree d hd (hda.trans hid)).2 e hde e' he'
    exact ⟨_, bind_eq_ok.mpr ⟨merged, hmerge, rfl⟩⟩
  · exact ⟨_, rfl⟩

theorem gathersAll_empty : GathersAll [] OrderedMap.empty := ⟨nofun, nofun⟩

theorem GathersAll.congr {sources : List StoredAssertion} {m m' : OrderedMap Text StoredAssertion}
    (h : GathersAll sources m) (hget : ∀ id, m'.get? id = m.get? id) : GathersAll sources m' :=
  ⟨fun id a ha => h.keyed id a (hget id ▸ ha), fun b hb => (hget b.id).symm ▸ h.covers b hb⟩

/-! ### Facts -/

/-- The assertions of the facts of an id. -/
def sourcesOf (fs : List StoredFact) (id : Text) : List StoredAssertion :=
  (fs.filter fun f => f.id = id).flatMap StoredFact.assertions

/-- `new Map(fact.assertions.map((assertion) => [assertion.id, assertion]))`. -/
def assertionMap (f : StoredFact) : OrderedMap Text StoredAssertion :=
  OrderedMap.ofList (f.assertions.map fun a => (a.id, a))

/-- A fact of an input. -/
structure IsBuilt (f : StoredFact) : Prop where
  claim : ∃ b, f.assertions = [b] ∧ IsClaim b
  object : ∃ object, f.object = normalizeFactObject object
  identity : ∃ id, identityOf f.subject f.predicate f.object = .ok id

/-- A fact that stands for those of a list that have its id. -/
structure GathersFact (fs : List StoredFact) (f : StoredFact) : Prop where
  source : ∃ g ∈ fs, g.id = f.id ∧ f = { g with assertions := f.assertions }
  identity : ∀ g ∈ fs, g.id = f.id →
    identityOf g.subject g.predicate g.object = identityOf f.subject f.predicate f.object
  sorted : f.assertions.Pairwise fun a b => a.id < b.id
  assertions : GathersAll (sourcesOf fs f.id) (assertionMap f)

theorem mem_sourcesOf {fs : List StoredFact} {id : Text} {a : StoredAssertion} :
    a ∈ sourcesOf fs id ↔ ∃ f ∈ fs, f.id = id ∧ a ∈ f.assertions := by
  simp [sourcesOf, and_assoc]

theorem sourcesOf_append {fs : List StoredFact} {g : StoredFact} {id : Text} :
    sourcesOf (fs ++ [g]) id = sourcesOf fs id ++ if g.id = id then g.assertions else [] := by
  rw [sourcesOf, List.filter_append, List.flatMap_append]
  split
  · rename_i hid
    simp [sourcesOf, hid]
  · rename_i hid
    simp [sourcesOf, hid]

theorem get?_assertionMap {f : StoredFact} (h : f.assertions.Pairwise fun a b => a.id < b.id) {id : Text}
    {a : StoredAssertion} : (assertionMap f).get? id = some a ↔ a ∈ f.assertions ∧ a.id = id := by
  have hnodup : ((f.assertions.map fun a => (a.id, a)).map Prod.fst).Nodup := by
    rw [List.map_map]
    exact List.pairwise_map.mpr (h.imp ne_of_lt)
  rw [assertionMap, OrderedMap.get?_ofList hnodup, OrderedMap.find_eq_some hnodup]
  constructor
  · intro hmem
    obtain ⟨b, hb, heq⟩ := List.mem_map.mp hmem
    obtain ⟨rfl, rfl⟩ := Prod.mk.inj heq
    exact ⟨hb, rfl⟩
  · rintro ⟨ha, rfl⟩
    exact List.mem_map_of_mem ha

theorem GathersAll.sorted_values {sources : List StoredAssertion} {m : OrderedMap Text StoredAssertion}
    (h : GathersAll sources m) : (sortBy StoredAssertion.id m.values).Pairwise fun a b => a.id < b.id :=
  sortBy_strict (m.nodup_values_map fun entry hentry =>
    (h.keyed entry.1 entry.2 (OrderedMap.get?_eq_some.mpr hentry)).1)

theorem GathersAll.to_list {sources : List StoredAssertion} {m : OrderedMap Text StoredAssertion} {f : StoredFact}
    (h : GathersAll sources m) (hf : f.assertions = sortBy StoredAssertion.id m.values) :
    GathersAll sources (assertionMap f) := by
  refine h.congr fun id => Option.ext fun a => ?_
  rw [get?_assertionMap (hf ▸ h.sorted_values), hf, mem_sortBy, OrderedMap.mem_values]
  constructor
  · rintro ⟨⟨key, hkey⟩, rfl⟩
    rwa [(h.keyed key a hkey).1]
  · exact fun ha => ⟨⟨id, ha⟩, (h.keyed id a ha).1⟩

theorem GathersFact.append_of_ne {fs : List StoredFact} {f g : StoredFact} (h : GathersFact fs f) (hne : g.id ≠ f.id) :
    GathersFact (fs ++ [g]) f := by
  obtain ⟨g', hg', heq⟩ := h.source
  refine ⟨⟨g', List.mem_append_left _ hg', heq⟩, fun k hk hid => ?_, h.sorted, ?_⟩
  · rcases List.mem_append.mp hk with hk | hk
    · exact h.identity k hk hid
    · exact absurd (List.mem_singleton.mp hk ▸ hid) hne
  · rw [sourcesOf_append, if_neg hne, List.append_nil]
    exact h.assertions

theorem GathersFact.single {fs : List StoredFact} {g : StoredFact} (hg : IsBuilt g) (hfree : ∀ f ∈ fs, f.id ≠ g.id) :
    GathersFact (fs ++ [g]) g := by
  obtain ⟨b, hb, hclaim⟩ := hg.claim
  refine ⟨⟨g, by simp, rfl, rfl⟩, fun k hk hid => ?_, by simp [hb], ?_⟩
  · rcases List.mem_append.mp hk with hk | hk
    · exact absurd hid (hfree k hk)
    · rw [List.mem_singleton.mp hk]
  · have hnone : sourcesOf fs g.id = [] := by
      rw [List.eq_nil_iff_forall_not_mem]
      intro a ha
      obtain ⟨f, hf, hid, _⟩ := mem_sourcesOf.mp ha
      exact hfree f hf hid
    rw [sourcesOf_append, if_pos rfl, hnone, assertionMap, hb]
    exact (gathersAll_empty.of_place hclaim rfl).2

theorem GathersFact.of_append {fs : List StoredFact} {existing g merged : StoredFact} (h : GathersFact fs existing)
    (hg : IsBuilt g) (hid : existing.id = g.id) (happend : appendFactAssertions existing g = .ok merged) :
    (∀ f ∈ fs, AgreeFacts f g) ∧ merged.id = g.id ∧ GathersFact (fs ++ [g]) merged := by
  obtain ⟨b, hb, hclaim⟩ := hg.claim
  obtain ⟨identity, hexisting, happend⟩ := bind_eq_ok.mp happend
  obtain ⟨identity', hincoming, happend⟩ := bind_eq_ok.mp happend
  obtain ⟨_, hidentity, happend⟩ := bind_eq_ok.mp happend
  obtain ⟨m, hfold, happend⟩ := bind_eq_ok.mp happend
  obtain rfl := Except.ok.inj happend
  obtain rfl := require_eq_ok.mp hidentity
  rw [hb] at hfold
  obtain ⟨m', hplace, hfold⟩ := bind_eq_ok.mp hfold
  obtain rfl := Except.ok.inj hfold
  obtain ⟨hagree, hgathers⟩ := h.assertions.of_place hclaim hplace
  refine ⟨fun f hf hfg => ⟨?_, fun a ha b' hb' => ?_⟩, hid, ?_, fun k hk hkid => ?_, hgathers.sorted_values, ?_⟩
  · rw [h.identity f hf (hfg.trans hid.symm), hexisting, hincoming]
  · rw [hb] at hb'
    obtain rfl := List.mem_singleton.mp hb'
    exact hagree a (mem_sourcesOf.mpr ⟨f, hf, hfg.trans hid.symm, ha⟩)
  · obtain ⟨g', hg', hgid, heq⟩ := h.source
    refine ⟨g', List.mem_append_left _ hg', hgid, ?_⟩
    rw [heq]
  · rcases List.mem_append.mp hk with hk | hk
    · exact h.identity k hk hkid
    · rw [List.mem_singleton.mp hk, hincoming, hexisting]
  · rw [sourcesOf_append, if_pos hid.symm, hb]
    exact hgathers.to_list rfl

theorem GathersFact.exists_append {fs : List StoredFact} {existing g : StoredFact} (h : GathersFact fs existing)
    (hg : IsBuilt g) (hid : existing.id = g.id) (hagree : ∀ f ∈ fs, AgreeFacts f g) :
    ∃ merged, appendFactAssertions existing g = .ok merged := by
  obtain ⟨b, hb, hclaim⟩ := hg.claim
  obtain ⟨identity, hincoming⟩ := hg.identity
  obtain ⟨g', hg', hgid, _⟩ := h.source
  have hexisting : identityOf existing.subject existing.predicate existing.object = .ok identity := by
    rw [← h.identity g' hg' hgid, (hagree g' hg' (hgid.trans hid)).1, hincoming]
  obtain ⟨m, hplace⟩ := h.assertions.exists_place hclaim fun a ha => by
    obtain ⟨f, hf, hfid, ha⟩ := mem_sourcesOf.mp ha
    exact (hagree f hf (hfid.trans hid)).2 a ha b (hb ▸ List.mem_singleton_self b)
  refine ⟨{ existing with assertions := sortBy StoredAssertion.id m.values }, ?_⟩
  refine bind_eq_ok.mpr ⟨identity, hexisting, bind_eq_ok.mpr ⟨identity, hincoming, ?_⟩⟩
  refine bind_eq_ok.mpr ⟨(), require_eq_ok.mpr rfl, bind_eq_ok.mpr ⟨m, ?_, rfl⟩⟩
  rw [hb]
  exact bind_eq_ok.mpr ⟨m, hplace, rfl⟩

/-! ### Stores -/

structure GathersFacts (fs : List StoredFact) (facts : FactStore) : Prop where
  built : ∀ f ∈ fs, IsBuilt f
  keyed : ∀ id f, facts.get? id = some f → f.id = id ∧ GathersFact fs f
  covers : ∀ f ∈ fs, ∃ g, facts.get? f.id = some g

theorem gathersFacts_empty : GathersFacts [] OrderedMap.empty :=
  ⟨nofun, nofun, nofun⟩

theorem GathersFacts.sorted_values {fs : List StoredFact} {facts : FactStore} (h : GathersFacts fs facts) :
    (sortedFacts facts).Pairwise fun f g => f.id < g.id :=
  sortBy_strict (facts.nodup_values_map fun entry hentry =>
    (h.keyed entry.1 entry.2 (OrderedMap.get?_eq_some.mpr hentry)).1)

theorem GathersFacts.of_place {fs : List StoredFact} {facts facts' : FactStore} {g : StoredFact}
    (h : GathersFacts fs facts) (hg : IsBuilt g) (hplace : placeFact facts g = .ok facts') :
    (∀ f ∈ fs, AgreeFacts f g) ∧ GathersFacts (fs ++ [g]) facts' := by
  have hset (f : StoredFact) (hid : f.id = g.id) (hf : GathersFact (fs ++ [g]) f) :
      GathersFacts (fs ++ [g]) (facts.set g.id f) := by
    refine ⟨fun k hk => ?_, fun id other hget => ?_, fun k hk => ?_⟩
    · exact (List.mem_append.mp hk).elim (h.built k) fun hk => List.mem_singleton.mp hk ▸ hg
    · rw [OrderedMap.get?_set] at hget
      split at hget
      · rename_i heq
        obtain rfl := Option.some.inj hget
        exact ⟨hid.trans heq, hf⟩
      · rename_i hne
        obtain ⟨hother, hgathers⟩ := h.keyed id other hget
        exact ⟨hother, hgathers.append_of_ne (hother ▸ hne)⟩
    · rw [OrderedMap.get?_set]
      split
      · exact ⟨f, rfl⟩
      · rename_i hne
        exact (List.mem_append.mp hk).elim (h.covers k) fun hk => absurd (List.mem_singleton.mp hk ▸ rfl) hne
  unfold placeFact at hplace
  split at hplace
  · rename_i existing hexisting
    obtain ⟨merged, happend, hplace⟩ := bind_eq_ok.mp hplace
    obtain rfl := Except.ok.inj hplace
    obtain ⟨hid, hgathers⟩ := h.keyed _ _ hexisting
    obtain ⟨hagree, hmid, hmerged⟩ := hgathers.of_append hg hid happend
    exact ⟨hagree, hset merged hmid hmerged⟩
  · rename_i hnone
    obtain rfl := Except.ok.inj hplace
    have hfree (f : StoredFact) (hf : f ∈ fs) : f.id ≠ g.id := by
      intro heq
      obtain ⟨k, hk⟩ := h.covers f hf
      rw [heq, hnone] at hk
      cases hk
    exact ⟨fun f hf heq => absurd heq (hfree f hf), hset g rfl (.single hg hfree)⟩

theorem GathersFacts.exists_place {fs : List StoredFact} {facts : FactStore} {g : StoredFact}
    (h : GathersFacts fs facts) (hg : IsBuilt g) (hagree : ∀ f ∈ fs, AgreeFacts f g) :
    ∃ facts', placeFact facts g = .ok facts' := by
  unfold placeFact
  split
  · rename_i existing hexisting
    obtain ⟨hid, hgathers⟩ := h.keyed _ _ hexisting
    obtain ⟨merged, hmerged⟩ := hgathers.exists_append hg hid hagree
    exact ⟨_, bind_eq_ok.mpr ⟨merged, hmerged, rfl⟩⟩
  · exact ⟨_, rfl⟩

/-! ### Inputs -/

section Hash

variable [Sha256]

theorem buildFact_eq_ok {x : FactInput} {f : StoredFact} (h : buildFact x = .ok f) :
    ∃ provenance evidence, normalizeProvenance x.provenance = .ok provenance ∧
      normalizeEvidence x.evidenceOrNone = .ok evidence ∧
      f.subject = x.subject ∧ f.predicate = x.predicate ∧ f.object = normalizeFactObject x.object ∧
      f.assertions = [⟨factAssertionId f.id x.authority provenance, x.authority, x.confidenceOrOne, provenance,
        evidence, "build"⟩] := by
  obtain ⟨_, _, h⟩ := bind_eq_ok.mp h
  obtain ⟨identity, _, h⟩ := bind_eq_ok.mp h
  obtain ⟨a, hassertion, h⟩ := bind_eq_ok.mp h
  obtain rfl := Except.ok.inj h
  obtain ⟨provenance, hprovenance, hassertion⟩ := bind_eq_ok.mp hassertion
  obtain ⟨evidence, hevidence, hassertion⟩ := bind_eq_ok.mp hassertion
  obtain rfl := Except.ok.inj hassertion
  exact ⟨provenance, evidence, hprovenance, hevidence, rfl, rfl, rfl, rfl⟩

theorem isBuilt_of_buildFact {x : FactInput} {f : StoredFact} (h : buildFact x = .ok f) : IsBuilt f := by
  obtain ⟨provenance, evidence, _, hevidence, hsubject, hpredicate, hobject, hassertions⟩ := buildFact_eq_ok h
  obtain ⟨_, hinput, h⟩ := bind_eq_ok.mp h
  obtain ⟨identity, hidentity, _⟩ := bind_eq_ok.mp h
  obtain ⟨_, hconfidence, _⟩ := bind_eq_ok.mp hinput
  have hfinite := require_eq_ok.mp hconfidence
  refine ⟨⟨_, hassertions, fun hnan => hfinite (.inl ?_), (normalize_eq_ok hevidence).2.1, rfl⟩, ⟨_, hobject⟩, identity, ?_⟩
  · exact congrArg JsNumber.isFinite hnan
  · rw [hsubject, hpredicate, hobject]
    exact hidentity

/-- Two inputs whose facts can stand in one store. -/
def AgreeInputs (x y : FactInput) : Prop :=
  ∀ f g, buildFact x = .ok f → buildFact y = .ok g → AgreeFacts f g

theorem AgreeInputs.symm {x y : FactInput} (h : AgreeInputs x y) : AgreeInputs y x :=
  fun f g hf hg => (h g f hg hf).symm

/-- The store holds what the inputs so far build. -/
def Holds (xs : List FactInput) (facts : FactStore) : Prop :=
  ∃ fs, xs.Forall₂ (fun x f => buildFact x = .ok f) fs ∧ GathersFacts fs facts

theorem Holds.of_addFact {xs : List FactInput} {facts facts' : FactStore} {x : FactInput} (h : Holds xs facts)
    (hadd : (Prod.fst <$> addFact facts x) = .ok facts') : (∀ y ∈ xs, AgreeInputs y x) ∧ Holds (xs ++ [x]) facts' := by
  obtain ⟨fs, hfs, hgathers⟩ := h
  obtain ⟨⟨placed, id⟩, hrun, hplaced⟩ := map_eq_ok.mp hadd
  obtain rfl : placed = facts' := hplaced
  obtain ⟨g, hg, hrun⟩ := bind_eq_ok.mp hrun
  obtain ⟨after, hplace, hrun⟩ := bind_eq_ok.mp hrun
  obtain ⟨rfl, _⟩ := Prod.mk.inj (Except.ok.inj hrun)
  obtain ⟨hagree, hnext⟩ := hgathers.of_place (isBuilt_of_buildFact hg) hplace
  refine ⟨fun y hy f g' hf hg' => ?_, fs ++ [g], List.rel_append hfs (.cons hg .nil), hnext⟩
  obtain ⟨f', hf', hbuilt⟩ := forall₂_exists_right hfs hy
  obtain rfl := Except.ok.inj (hf.symm.trans hbuilt)
  obtain rfl := Except.ok.inj (hg.symm.trans hg')
  exact hagree f hf'

theorem Holds.exists_addFact {xs : List FactInput} {facts : FactStore} {x : FactInput} (h : Holds xs facts)
    (hx : ∃ g, buildFact x = .ok g) (hagree : ∀ y ∈ xs, AgreeInputs y x) :
    ∃ facts', (Prod.fst <$> addFact facts x) = .ok facts' := by
  obtain ⟨fs, hfs, hgathers⟩ := h
  obtain ⟨g, hg⟩ := hx
  obtain ⟨placed, hplace⟩ := hgathers.exists_place (isBuilt_of_buildFact hg) fun f hf => by
    obtain ⟨y, hy, hbuilt⟩ := forall₂_exists_left hfs hf
    exact hagree y hy f g hbuilt hg
  exact ⟨placed, map_eq_ok.mpr ⟨(placed, g.id), bind_eq_ok.mpr ⟨g, hg, bind_eq_ok.mpr ⟨placed, hplace, rfl⟩⟩, rfl⟩⟩

theorem holds_empty : Holds [] OrderedMap.empty := ⟨[], .nil, gathersFacts_empty⟩

theorem holds_of_addFacts {xs : List FactInput} {facts : FactStore} (h : addFacts OrderedMap.empty xs = .ok facts) :
    xs.Pairwise AgreeInputs ∧ Holds xs facts :=
  foldlM_pairwise (fun _ _ _ _ hholds hadd => Holds.of_addFact hholds hadd) holds_empty h

theorem exists_addFacts {xs : List FactInput} (hbuilt : ∀ x ∈ xs, ∃ f, buildFact x = .ok f)
    (hagree : xs.Pairwise AgreeInputs) : ∃ facts, addFacts OrderedMap.empty xs = .ok facts :=
  foldlM_of_pairwise (fun _ _ _ _ hholds hadd => Holds.of_addFact hholds hadd)
    (fun _ _ x hx hholds hrelated => Holds.exists_addFact hholds (hbuilt x hx) hrelated) holds_empty hagree

/-- Whether inputs can be added does not depend on their order. -/
theorem exists_addFacts_of_perm {xs ys : List FactInput} (h : xs.Perm ys) {facts : FactStore}
    (hxs : addFacts OrderedMap.empty xs = .ok facts) : ∃ facts', addFacts OrderedMap.empty ys = .ok facts' := by
  obtain ⟨hagree, fs, hfs, _⟩ := holds_of_addFacts hxs
  refine exists_addFacts (fun y hy => ?_) (hagree.perm h fun hxy => hxy.symm)
  obtain ⟨f, _, hf⟩ := forall₂_exists_right hfs (h.mem_iff.mpr hy)
  exact ⟨f, hf⟩

end Hash

end SecPlatform.Compiler.IR
