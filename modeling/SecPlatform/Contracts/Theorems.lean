import SecPlatform.Contracts.Lemmas.CanonicalEncoding
import SecPlatform.Contracts.Lemmas.DirectedGraph
import SecPlatform.Contracts.Lemmas.ExactJsonAgreement

/-!
# What the exact JSON reader accepts, what the canonical encoding preserves and the components of a graph
-/

namespace SecPlatform.Contracts

/-! ## Exact JSON -/

section ExactJson

variable {ν : Type} [JsonNumber ν]

/-- Without a root key contract a call fails or returns what `JSON.parse` returns. -/
theorem parseExactJson_eq (source label : Text) (maximumDepth : Option JsNumber) (depth : Option Nat)
    (hd : maximumDepth.map positiveSafeInteger? = depth.map some) :
    ∃ result : Except ExactJsonFailure (Json ν), parseExactJson source label none maximumDepth = some result ∧
      (∀ v, result = .ok v → Json.parse source = some v) ∧
      (Succeeds result ↔ ∃ tree : Json ν, Json.document source = some tree ∧ Admitted depth 0 tree) := by
  obtain ⟨scanned, hscan⟩ := scanDocument_terminates label depth source
  have hparse : parseExactJson (ν := ν) source label none maximumDepth =
      some (scanned.bind (finishDocument source label none)) := by
    unfold parseExactJson
    rw [hd]
    cases depth with
    | none => simp [hscan]
    | some n => simp [hscan]
  refine ⟨_, hparse, ?_, ?_⟩
  · intro v hv
    obtain ⟨c, _, hfinish⟩ := bind_eq_ok.mp hv
    unfold finishDocument at hfinish
    dsimp only at hfinish
    split at hfinish
    · cases hfinish
    · split at hfinish
      · cases hfinish
      · rename_i value hvalue
        cases hfinish
        exact hvalue
  · constructor
    · rintro ⟨v, hv⟩
      obtain ⟨c, hc, hfinish⟩ := bind_eq_ok.mp hv
      cases htree : Json.document (ν := ν) source with
      | none =>
          unfold finishDocument at hfinish
          dsimp only at hfinish
          rw [Json.parse, htree] at hfinish
          split at hfinish <;> cases hfinish
      | some tree =>
          refine ⟨tree, rfl, ?_⟩
          by_contra ha
          obtain ⟨e, he⟩ := (scanDocument_of_document label htree).2 ha
          rw [hscan, hc] at he
          cases he
    · rintro ⟨tree, htree, ha⟩
      obtain ⟨c, hc, hrest⟩ := (scanDocument_of_document label htree).1 ha
      rw [hscan, Option.some.injEq] at hc
      have hskip : (skipWhitespace c).rest = [] := hrest
      refine ⟨tree.ofTree, ?_⟩
      rw [hc]
      show finishDocument source label none c = _
      simp [finishDocument, hskip, Json.parse, htree]

/-- The reader ends on every text. It accepts exactly the JSON texts whose objects have no key twice and whose
containers nest no deeper than the bound, and it returns the value of `JSON.parse`. -/
theorem parseExactJson_accepts_iff (source label : Text) (maximumDepth : Option JsNumber)
    (hadmitted : ∀ m, maximumDepth = some m → (positiveSafeInteger? m).isSome) :
    ∃ result : Except ExactJsonFailure (Json ν), parseExactJson source label none maximumDepth = some result ∧
      (Succeeds result ↔ ∃ tree : Json ν, Json.document source = some tree ∧ tree.UniqueKeys ∧
        ∀ m n, maximumDepth = some m → positiveSafeInteger? m = some n → tree.depth ≤ n) ∧
      (∀ v, result = .ok v → Json.parse source = some v) := by
  cases maximumDepth with
  | none =>
      obtain ⟨result, hresult, hvalue, hok⟩ := parseExactJson_eq (ν := ν) source label none none rfl
      refine ⟨result, hresult, ?_, hvalue⟩
      rw [hok]
      simp only [admitted_zero_iff, reduceCtorEq, false_implies, implies_true]
  | some m =>
      obtain ⟨n, hn⟩ := Option.isSome_iff_exists.mp (hadmitted m rfl)
      obtain ⟨result, hresult, hvalue, hok⟩ := parseExactJson_eq (ν := ν) source label (some m) (some n) (by simp [hn])
      refine ⟨result, hresult, ?_, hvalue⟩
      have hbound (tree : Json ν) : Admitted (some n) 0 tree ↔ tree.UniqueKeys ∧
          ∀ m' n', some m = some m' → positiveSafeInteger? m' = some n' → tree.depth ≤ n' := by
        rw [admitted_zero_iff]
        constructor
        · rintro ⟨hu, hd⟩
          refine ⟨hu, ?_⟩
          rintro _ n' ⟨⟩ hn'
          rw [hn, Option.some.injEq] at hn'
          exact hn' ▸ hd n rfl
        · rintro ⟨hu, hd⟩
          refine ⟨hu, ?_⟩
          rintro _ ⟨⟩
          exact hd m n rfl hn
      rw [hok]
      simp only [hbound]

/-- The document `[[]]` under the bound 1. -/
theorem parseExactJson_accepts_iff_nested :
    ∃ result : Except ExactJsonFailure (Json JsNumber),
      parseExactJson "[[]]" "JSON document" none (some (.ofNat 1)) = some result ∧
      (Succeeds result ↔ ∃ tree : Json JsNumber, Json.document "[[]]" = some tree ∧ tree.UniqueKeys ∧
        ∀ m n, some (.ofNat 1) = some m → positiveSafeInteger? m = some n → tree.depth ≤ n) ∧
      (∀ v, result = .ok v → Json.parse "[[]]" = some v) :=
  parseExactJson_accepts_iff "[[]]" "JSON document" (some (.ofNat 1)) (by
    rintro m ⟨⟩
    decide)

end ExactJson

/-! ## Canonical encoding -/

namespace ObjectGraph

variable {ρ ρ' : Type} [DecidableEq ρ] [DecidableEq ρ'] [Finite ρ] [Finite ρ']

/-- The laws of one admitted value. -/
structure CanonicalLaw (heap : Heap ρ) (value : JsValue ρ) : Prop where
  circular_iff : Terminates (canonicalJson heap value) (.error .circular) ↔ Cyclic heap value
  normalizes : ¬ Cyclic heap value →
    ∃ tree, Unfolds heap value tree ∧ Terminates (canonicalJson heap value) (.ok (canonical tree))
  text : ∀ normalized, Terminates (canonicalJson heap value) (.ok normalized) → ∀ batch, ∃ chunks,
    Terminates (canonicalEncodingChunks batch heap value) (.ok chunks) ∧ chunks.flatten = normalized.render
  idempotent : ∀ normalized, Terminates (canonicalJson heap value) (.ok normalized) →
    ∀ (σ : Type) [DecidableEq σ] [Finite σ] (again : Heap σ) (value' : JsValue σ), Unfolds again value' normalized →
      Terminates (canonicalJson again value') (.ok normalized)

/-- The laws of two admitted values. -/
structure CanonicalAgreement (heap : Heap ρ) (left : JsValue ρ) (heap' : Heap ρ') (right : JsValue ρ') : Prop where
  insertionOrder : ∀ tree tree', Unfolds heap left tree → Unfolds heap' right tree' → KeyOrder tree tree' →
    ∀ normalized, Terminates (canonicalJson heap left) (.ok normalized) →
      Terminates (canonicalJson heap' right) (.ok normalized)
  injective : ∀ batch batch' chunks chunks', Terminates (canonicalEncodingChunks batch heap left) (.ok chunks) →
    Terminates (canonicalEncodingChunks batch' heap' right) (.ok chunks') → chunks.flatten = chunks'.flatten →
      ∃ normalized, Terminates (canonicalJson heap left) (.ok normalized) ∧
        Terminates (canonicalJson heap' right) (.ok normalized)
  equals_iff : ∀ batch batch' chunks chunks', Terminates (canonicalEncodingChunks batch heap left) (.ok chunks) →
    Terminates (canonicalEncodingChunks batch' heap' right) (.ok chunks') →
      ∃ b, Terminates (canonicalEquals heap left heap' right) (.ok b) ∧ (b = true ↔ chunks.flatten = chunks'.flatten)

omit [Finite ρ] in
theorem terminates_chunks {heap : Heap ρ} {v : JsValue ρ} {t : Value}
    (h : Terminates (canonicalJson heap v) (.ok (canonical t))) (batch : Nat) :
    Terminates (canonicalEncodingChunks batch heap v) (.ok (coalesce batch [] (normalizedTokens (canonical t)))) :=
  (h.map fun result => result.map normalizedTokens).map fun result => result.map (coalesce batch [])

theorem flatten_chunks (batch : Nat) (t : Value) :
    (coalesce batch [] (normalizedTokens (canonical t))).flatten = canonicalEncoding t := by
  rw [coalesce_flatten, List.nil_append, normalizedTokens_flatten (ordered_canonical t)]
  rfl

/-- What chunks say about the value they encode. -/
theorem Admitted.of_chunks {heap : Heap ρ} {v : JsValue ρ} (hv : Admitted heap v) {batch : Nat} {chunks : List Text}
    (h : Terminates (canonicalEncodingChunks batch heap v) (.ok chunks)) :
    ∃ t, isFinite t ∧ Terminates (canonicalJson heap v) (.ok (canonical t)) ∧ chunks.flatten = canonicalEncoding t := by
  rcases hv.normalized_or_circular with ⟨t, -, hfinite, -, hend⟩ | ⟨-, hend⟩
  · refine ⟨t, hfinite, hend, ?_⟩
    obtain rfl := Except.ok.inj (h.unique (terminates_chunks hend batch))
    exact flatten_chunks batch t
  · have herror : Terminates (canonicalEncodingChunks batch heap v) (.error .circular) :=
      (hend.map fun result => result.map normalizedTokens).map fun result => result.map (coalesce batch [])
    cases h.unique herror

theorem Admitted.canonicalLaw {heap : Heap ρ} {v : JsValue ρ} (hv : Admitted heap v) : CanonicalLaw heap v := by
  refine ⟨⟨fun hend => ?_, fun hc => hc.terminates hv⟩, fun hc => ?_, fun n hn batch => ?_, fun n hn σ _ _ again w hw => ?_⟩
  · rcases hv.normalized_or_circular with ⟨t, -, -, -, hok⟩ | ⟨hc, -⟩
    · cases hend.unique hok
    · exact hc
  · rcases hv.normalized_or_circular with ⟨t, ht, -, -, hok⟩ | ⟨hcyclic, -⟩
    · exact ⟨t, ht, hok⟩
    · exact absurd hcyclic hc
  · obtain ⟨t, -, -, -, rfl⟩ := hv.normalized hn
    exact ⟨_, terminates_chunks hn batch, flatten_chunks batch t⟩
  · obtain ⟨t, -, hfinite, hkeys, rfl⟩ := hv.normalized hn
    have hend := hw.terminates (isFinite_canonical t hfinite)
    rwa [canonical_canonical t] at hend

theorem Admitted.canonicalAgreement {heap : Heap ρ} {v : JsValue ρ} {heap' : Heap ρ'} {w : JsValue ρ'}
    (hv : Admitted heap v) (hw : Admitted heap' w) : CanonicalAgreement heap v heap' w := by
  refine ⟨?_, ?_, ?_⟩
  · rintro tree tree' ⟨d, ht⟩ ⟨d', ht'⟩ horder n hn
    have hleft := Unfolds.terminates ⟨d, ht⟩ (ht.isFinite hv)
    have hright := Unfolds.terminates ⟨d', ht'⟩ (ht'.isFinite hw)
    rw [Except.ok.inj (hn.unique hleft), (horder.canonical ht.uniqueKeys).2]
    exact hright
  · intro batch batch' chunks chunks' hc hc' heq
    obtain ⟨t, hfinite, hend, htext⟩ := hv.of_chunks hc
    obtain ⟨u, hfinite', hend', htext'⟩ := hw.of_chunks hc'
    have hsame := canonical_eq_of_encoding hfinite hfinite' (htext.symm.trans (heq.trans htext'))
    exact ⟨canonical t, hend, hsame ▸ hend'⟩
  · intro batch batch' chunks chunks' hc hc'
    obtain ⟨t, hfinite, ⟨n, hn⟩, htext⟩ := hv.of_chunks hc
    obtain ⟨u, hfinite', ⟨n', hn'⟩, htext'⟩ := hw.of_chunks hc'
    refine ⟨equalTokens (normalizedTokens (canonical t)) (normalizedTokens (canonical u)), ?_, ?_⟩
    · refine ⟨max n n', fun fuel hfuel => ?_⟩
      simp only [canonicalEquals, canonicalTokens, hn fuel (le_trans (le_max_left n n') hfuel),
        hn' fuel (le_trans (le_max_right n n') hfuel), Option.map_some, Except.map]
    · rw [equalTokens_iff, htext, htext']
      constructor
      · intro heq
        have := congrArg List.flatten heq
        rwa [normalizedTokens_flatten (ordered_canonical t), normalizedTokens_flatten (ordered_canonical u)] at this
      · intro heq
        rw [canonical_eq_of_encoding hfinite hfinite' heq]

/-- The canonical encoding of admitted values, shared substructures and cycles included. -/
theorem canonicalJson_lawful (heap : Heap ρ) (left : JsValue ρ) (heap' : Heap ρ') (right : JsValue ρ')
    (hleft : Admitted heap left) (hright : Admitted heap' right) :
    CanonicalLaw heap left ∧ CanonicalAgreement heap left heap' right :=
  ⟨hleft.canonicalLaw, hleft.canonicalAgreement hright⟩

/-- A record whose two properties share one array. -/
def sharedArray : Heap Bool
  | true => .record ⟨[(Text.ofString "b", .data (.ref false)), (Text.ofString "a", .data (.ref false))], by decide⟩
  | false => .array [none, some (.data .null)]

/-- A record that holds itself. -/
def selfReference : Heap Unit := fun _ => .record ⟨[(Text.ofString "self", .data (.ref ()))], by decide⟩

theorem canonicalJson_lawful_shared :
    CanonicalLaw sharedArray (.ref true) ∧ CanonicalAgreement sharedArray (.ref true) selfReference (.ref ()) := by
  have hshared : Admitted sharedArray (.ref true) := by
    refine admitted_of_closed (fun v => v = .ref true ∨ v = .ref false ∨ v = .null) ?_ ?_ (.inl rfl)
    · rintro v w (rfl | rfl | rfl) hw
      · cases hw with
        | element hr => cases hr
        | property hr hmem =>
            cases hr
            simp only [List.mem_cons, Prod.mk.injEq, Slot.data.injEq, List.not_mem_nil, or_false] at hmem
            rcases hmem with ⟨-, rfl⟩ | ⟨-, rfl⟩ <;> exact .inr (.inl rfl)
      · cases hw with
        | property hr => cases hr
        | element hr hmem =>
            cases hr
            simp only [List.mem_cons, reduceCtorEq, Option.some.injEq, Slot.data.injEq, List.not_mem_nil, or_false,
              false_or] at hmem
            exact .inr (.inr hmem)
      · cases hw
    · rintro v (rfl | rfl | rfl)
      · simp [PlainData, sharedArray]
      · simp [PlainData, sharedArray]
      · trivial
  have hself : Admitted selfReference (.ref ()) := by
    refine admitted_of_closed (fun v => v = .ref ()) ?_ ?_ rfl
    · rintro v w rfl hw
      cases hw with
      | element hr => cases hr
      | property hr hmem =>
          cases hr
          simp only [List.mem_cons, Prod.mk.injEq, Slot.data.injEq, List.not_mem_nil, or_false] at hmem
          exact hmem.2
    · rintro v rfl
      simp [PlainData, selfReference]
  exact canonicalJson_lawful sharedArray (.ref true) selfReference (.ref ()) hshared hself

end ObjectGraph

/-! ## Strong components -/

section DirectedGraph

/-- The search ends for every list of nodes and edges: it fails exactly when an edge leaves the declared nodes, a result
is the sorted list of the sorted components, and only the sets of nodes and edges matter. -/
theorem compileClosedDirectedGraphStrongComponents_components (nodeIds : List Text) (edges : List DirectedGraphEdge) :
    ((∃ message, compileClosedDirectedGraphStrongComponents nodeIds edges = .error message) ↔
      ∃ edge ∈ edges, edge.from ∉ nodeIds ∨ edge.«to» ∉ nodeIds) ∧
    (∀ result, compileClosedDirectedGraphStrongComponents nodeIds edges = .ok result →
      ∃ components, result = some components ∧
        SortedComponents (fun a b => ⟨a, b⟩ ∈ edges) (· ∈ nodeIds) components) ∧
    ∀ nodeIds' edges', (∀ a, a ∈ nodeIds' ↔ a ∈ nodeIds) → (∀ edge, edge ∈ edges' ↔ edge ∈ edges) → ∀ result,
      compileClosedDirectedGraphStrongComponents nodeIds' edges' = .ok result ↔
        compileClosedDirectedGraphStrongComponents nodeIds edges = .ok result := by
  refine ⟨?_, fun result hresult => ?_, fun nodeIds' edges' hnodes hedges result => ?_⟩
  · rcases compile_cases nodeIds edges with ⟨hclosed, components, hok, -⟩ | ⟨edge, hmem, hleaves, herror⟩
    · rw [hok]
      refine iff_of_false nofun fun ⟨edge, hmem, hleaves⟩ => ?_
      exact hleaves.elim (· (hclosed edge hmem).1) (· (hclosed edge hmem).2)
    · exact iff_of_true ⟨_, herror⟩ ⟨edge, hmem, hleaves⟩
  · rcases compile_cases nodeIds edges with ⟨-, components, hok, hsorted⟩ | ⟨edge, -, -, herror⟩
    · rw [hok] at hresult
      exact ⟨components, (Except.ok.inj hresult).symm, hsorted⟩
    · rw [herror] at hresult
      cases hresult
  · rcases compile_cases nodeIds edges with ⟨hclosed, components, hok, hsorted⟩ | ⟨edge, hmem, hleaves, herror⟩ <;>
      rcases compile_cases nodeIds' edges' with ⟨hclosed', components', hok', hsorted'⟩ | ⟨edge', hmem', hleaves', herror'⟩
    · have hsame := (SortedComponents.congr (fun a b => hedges ⟨a, b⟩) hnodes).mp hsorted'
      rw [hok, hok', hsorted.unique hsame]
    · have hclosed' := hclosed edge' ((hedges edge').mp hmem')
      rw [hnodes, hnodes] at hleaves'
      exact absurd hclosed' (not_and_or.mpr hleaves')
    · have hclosed := hclosed' edge ((hedges edge).mpr hmem)
      rw [hnodes, hnodes] at hclosed
      exact absurd hclosed (not_and_or.mpr hleaves)
    · rw [herror, herror']
      exact iff_of_false nofun nofun

end DirectedGraph

end SecPlatform.Contracts
