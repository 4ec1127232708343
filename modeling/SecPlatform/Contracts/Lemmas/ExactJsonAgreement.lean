import SecPlatform.Contracts.Lemmas.ExactJson

/-!
# Scanner and grammar

On a text whose front the grammar reads as one value, the scanner ends behind that value if its nesting
and its keys are admitted, and fails otherwise.
-/

namespace SecPlatform.Contracts

open Json (skipSpace value items members scalar stringBody stringToken depthItems depthMembers UniqueKeysItems
  UniqueKeysMembers)

variable {ν : Type} {label : Text} {maximumDepth : Option Nat}

/-! ## Depth -/

/-- The bound on the nesting, when there is one. -/
def Within (maximumDepth : Option Nat) (n : Nat) : Prop := ∀ m, maximumDepth = some m → n ≤ m

theorem Within.mono {m n : Nat} (h : Within maximumDepth n) (hm : m ≤ n) : Within maximumDepth m :=
  fun k hk => hm.trans (h k hk)

theorem within_max {n a b : Nat} :
    Within maximumDepth (n + max a b) ↔ Within maximumDepth (n + a) ∧ Within maximumDepth (n + b) := by
  refine ⟨fun h => ⟨h.mono (by omega), h.mono (by omega)⟩, fun ⟨ha, hb⟩ m hm => ?_⟩
  have := ha m hm
  have := hb m hm
  omega

/-- A value that may stand inside `depth` containers. -/
def Admitted (maximumDepth : Option Nat) (depth : Nat) (v : Json ν) : Prop :=
  Within maximumDepth (depth + v.depth) ∧ v.UniqueKeys

/-- Elements that may stand in an array inside `depth` containers, that array included. -/
def AdmittedItems (maximumDepth : Option Nat) (depth : Nat) (vs : List (Json ν)) : Prop :=
  Within maximumDepth (depth + depthItems vs) ∧ UniqueKeysItems vs

/-- Members that may follow the keys already seen in an object. -/
def AdmittedMembers (maximumDepth : Option Nat) (depth : Nat) (keys : List Text) (ms : List (Text × Json ν)) : Prop :=
  Within maximumDepth (depth + depthMembers ms) ∧ (ms.map Prod.fst).Nodup ∧ (∀ k ∈ ms.map Prod.fst, k ∉ keys) ∧
    UniqueKeysMembers ms

theorem admittedItems_cons {depth : Nat} {v : Json ν} {vs : List (Json ν)} :
    AdmittedItems maximumDepth depth (v :: vs) ↔
      Admitted maximumDepth depth v ∧ AdmittedItems maximumDepth depth vs := by
  simp only [AdmittedItems, Admitted, depthItems, UniqueKeysItems, within_max]
  tauto

theorem admittedItems_nil {depth : Nat} (h : Within maximumDepth depth) :
    AdmittedItems (ν := ν) maximumDepth depth [] := ⟨by simpa [depthItems] using h, trivial⟩

theorem admittedMembers_cons {depth : Nat} {keys : List Text} {k : Text} {v : Json ν} {ms : List (Text × Json ν)}
    (hk : k ∉ keys) :
    AdmittedMembers maximumDepth depth keys ((k, v) :: ms) ↔
      Admitted maximumDepth depth v ∧ AdmittedMembers maximumDepth depth (k :: keys) ms := by
  have hkeys : (∀ l ∈ (((k, v) :: ms).map Prod.fst), l ∉ keys) ↔ ∀ l ∈ ms.map Prod.fst, l ∉ keys := by
    rw [List.map_cons, List.forall_mem_cons]
    exact and_iff_right hk
  have hsplit : (∀ l ∈ ms.map Prod.fst, l ∉ k :: keys) ↔ k ∉ ms.map Prod.fst ∧ ∀ l ∈ ms.map Prod.fst, l ∉ keys := by
    constructor
    · exact fun h => ⟨fun hm => h k hm (by simp), fun l hl hm => h l hl (by simp [hm])⟩
    · rintro ⟨h, h'⟩ l hl hm
      rcases List.mem_cons.mp hm with rfl | hm
      · exact h hl
      · exact h' l hl hm
  unfold AdmittedMembers
  rw [hkeys, hsplit]
  simp only [Admitted, depthMembers, UniqueKeysMembers, within_max, List.map_cons, List.nodup_cons]
  tauto

theorem admittedMembers_nil {depth : Nat} {keys : List Text} (h : Within maximumDepth depth) :
    AdmittedMembers (ν := ν) maximumDepth depth keys [] :=
  ⟨by simpa [depthMembers] using h, by simp, by simp, trivial⟩

theorem admitted_arr {depth : Nat} {vs : List (Json ν)} :
    Admitted maximumDepth depth (.arr vs) ↔
      Within maximumDepth (depth + 1) ∧ AdmittedItems maximumDepth (depth + 1) vs := by
  simp only [Admitted, AdmittedItems, Json.depth, Json.UniqueKeys]
  rw [show depth + (depthItems vs + 1) = depth + 1 + depthItems vs by omega]
  exact ⟨fun h => ⟨h.1.mono (by omega), h⟩, fun h => h.2⟩

theorem admitted_obj {depth : Nat} {ms : List (Text × Json ν)} :
    Admitted maximumDepth depth (.obj ms) ↔
      Within maximumDepth (depth + 1) ∧ AdmittedMembers maximumDepth (depth + 1) [] ms := by
  simp only [Admitted, AdmittedMembers, Json.depth, Json.UniqueKeys]
  rw [show depth + (depthMembers ms + 1) = depth + 1 + depthMembers ms by omega]
  refine ⟨fun ⟨hd, hn, hu⟩ => ⟨hd.mono (by omega), hd, hn, by simp, hu⟩, fun ⟨_, hd, hn, _, hu⟩ => ⟨hd, hn, hu⟩⟩

/-- At the root only the bound itself and the keys matter. -/
theorem admitted_zero_iff {maximumDepth : Option Nat} {tree : Json ν} :
    Admitted maximumDepth 0 tree ↔ tree.UniqueKeys ∧ ∀ n, maximumDepth = some n → tree.depth ≤ n := by
  simp only [Admitted, Within, Nat.zero_add]
  exact and_comm

variable [JsonNumber ν]

/-! ## White space -/

theorem skipSpace_skipSpace (s : Text) : skipSpace (skipSpace s) = skipSpace s := by
  simp only [skipSpace]
  cases h : s.dropWhile Json.isSpace with
  | nil => rfl
  | cons c t =>
      have := List.head?_dropWhile_not Json.isSpace s
      rw [h] at this
      simp only [List.head?_cons] at this
      rw [List.dropWhile_cons, if_neg (by simp [this])]

theorem skipWhitespace_skipWhitespace (c : Cursor) : skipWhitespace (skipWhitespace c) = skipWhitespace c := by
  have h := skipSpace_skipSpace c.rest
  have hlen := congrArg List.length
    (List.takeWhile_append_dropWhile (p := Json.isSpace) (l := c.rest.dropWhile Json.isSpace))
  simp only [skipSpace] at h
  rw [List.length_append, h] at hlen
  simp only [skipWhitespace, Cursor.skip, h, Cursor.mk.injEq, and_true]
  omega

theorem readValue_skipWhitespace (c : Cursor) (frames : List ContainerFrame) :
    readValue label maximumDepth (skipWhitespace c) frames = readValue label maximumDepth c frames := by
  simp only [readValue, skipWhitespace_skipWhitespace]

theorem scanStep_skipWhitespace (c : Cursor) (frame : ContainerFrame) (below : List ContainerFrame) :
    scanStep label maximumDepth (skipWhitespace c) frame below = scanStep label maximumDepth c frame below := by
  simp only [scanStep, skipWhitespace_skipWhitespace]

theorem value_skipSpace (f : Nat) (s : Text) : value (ν := ν) f (skipSpace s) = value f s := by
  cases f with
  | zero => rfl
  | succ f => simp only [value, skipSpace_skipSpace]

theorem items_skipSpace (f : Nat) (s : Text) : items (ν := ν) f (skipSpace s) = items f s := by
  cases f with
  | zero => rfl
  | succ f => simp only [items, value_skipSpace]

theorem members_skipSpace (f : Nat) (s : Text) : members (ν := ν) f (skipSpace s) = members f s := by
  cases f with
  | zero => rfl
  | succ f => simp only [members, skipSpace_skipSpace]

/-! ## Tokens -/

variable (label) in
/-- The scanner passes over a string that reads, exactly. -/
theorem stringTokenLoop_of_stringBody (start offset : Nat) {s t r : Text} (h : stringBody s = some (t, r)) :
    ∃ token offset', stringTokenLoop label start offset s = .ok (token, ⟨offset', r⟩) ∧ s = token ++ r := by
  fun_induction stringBody s generalizing t r offset with
  | case1 => cases h
  | case2 rest =>
      simp only [Option.some.injEq, Prod.mk.injEq] at h
      obtain ⟨_, rfl⟩ := h
      exact ⟨[0x22], offset + 1, by rw [stringTokenLoop.eq_def]; rfl, rfl⟩
  | case3 => cases h
  | case4 h₁ h₂ h₃ h₄ rest _ ih =>
      simp only [Option.bind_eq_some_iff, Option.map_eq_some_iff, Prod.mk.injEq] at h
      obtain ⟨u, _, ⟨s', r'⟩, hs, _, rfl⟩ := h
      obtain ⟨token, offset', hloop, rfl⟩ := ih (offset + 6) hs
      refine ⟨0x5C :: unit 'u' :: h₁ :: h₂ :: h₃ :: h₄ :: token, offset', ?_, rfl⟩
      rw [stringTokenLoop.eq_def]
      simp only [show ¬ (0x5C : CodeUnit) = 0x22 by decide, ↓reduceIte, hloop, ok_bind, pure_eq_ok]
  | case5 => cases h
  | case6 e rest he _ ih =>
      simp only [Option.bind_eq_some_iff, Option.map_eq_some_iff, Prod.mk.injEq] at h
      obtain ⟨u, _, ⟨s', r'⟩, hs, _, rfl⟩ := h
      obtain ⟨token, offset', hloop, rfl⟩ := ih (offset + 2) hs
      refine ⟨0x5C :: e :: token, offset', ?_, rfl⟩
      rw [stringTokenLoop.eq_def]
      simp only [show ¬ (0x5C : CodeUnit) = 0x22 by decide, ↓reduceIte, he, hloop, ok_bind, pure_eq_ok]
  | case7 => cases h
  | case8 c rest hq hb hc ih =>
      simp only [Option.map_eq_some_iff, Prod.mk.injEq] at h
      obtain ⟨⟨s', r'⟩, hs, _, rfl⟩ := h
      obtain ⟨token, offset', hloop, rfl⟩ := ih (offset + 1) hs
      refine ⟨c :: token, offset', ?_, rfl⟩
      rw [stringTokenLoop.eq_def]
      simp only [hq, hb, hc, ↓reduceIte, hloop, ok_bind, pure_eq_ok]

variable (label) in
/-- A string token that reads is passed over exactly, and as a key it stands for the string. -/
theorem readStringToken_of_stringToken {c : Cursor} {t r : Text} (h : stringToken c.rest = some (t, r)) :
    ∃ token offset, readStringToken label c = .ok (token, ⟨offset, r⟩) ∧
      ∀ tokenOffset, parseObjectKey label token tokenOffset offset = .ok t := by
  obtain ⟨offset, s⟩ := c
  cases s with
  | nil => cases h
  | cons q rest =>
      simp only [stringToken] at h
      split at h
      · rename_i hq
        obtain ⟨token, offset', hloop, hsplit⟩ :=
          stringTokenLoop_of_stringBody label offset (offset + 1) h
        obtain ⟨token', hsplit', htoken⟩ := Json.stringBody_eq h
        obtain rfl : token = token' := List.append_cancel_right (hsplit.symm.trans hsplit')
        refine ⟨0x22 :: token, offset', ?_, fun tokenOffset => ?_⟩
        · simp only [readStringToken, hq, ↓reduceIte, hloop, ok_bind, pure_eq_ok]
        · simp only [parseObjectKey, Json.parse, Json.document_stringToken htoken, Option.map_some, Json.ofTree]
      · cases h

theorem isValueEnd_bare {c : CodeUnit} (h : Json.IsBareUnit c) : isValueEnd c = false := by
  have hword (word : Text) (hw : word.all (fun u => !isValueEnd u)) (h : c ∈ word) : isValueEnd c = false := by
    simpa using List.all_eq_true.mp hw c h
  rcases h with (rfl | rfl | rfl | rfl | rfl | ⟨d, rfl⟩) | h | h | h
  · decide
  · decide
  · decide
  · decide
  · decide
  · clear hword; revert d; decide
  · exact hword _ (by decide) h
  · exact hword _ (by decide) h
  · exact hword _ (by decide) h

/-- What may follow a value inside a document. -/
def Delimited (r : Text) : Prop := ∀ c, (skipSpace r).head? = some c → isValueEnd c

theorem Delimited.head {r : Text} (h : Delimited r) {c : CodeUnit} (hc : r.head? = some c) : isValueEnd c := by
  cases r with
  | nil => cases hc
  | cons d t =>
      simp only [List.head?_cons, Option.some.injEq] at hc
      subst hc
      by_cases hs : Json.isSpace d
      · simp [isValueEnd, hs]
      · exact h d (by simp [skipSpace, hs])

/-- A scalar that is no string is passed over exactly. -/
theorem skip_scalar (offset : Nat) {c : CodeUnit} {t r : Text} {v : Json ν} (h : scalar (c :: t) = some (v, r))
    (hq : c ≠ 0x22) (hr : Delimited r) :
    ∃ offset', (⟨offset, c :: t⟩ : Cursor).skip (fun u => !isValueEnd u) = ⟨offset', r⟩ ∧ offset' ≠ offset := by
  obtain ⟨token, hsplit, hbare⟩ := Json.scalar_eq h (by simpa using hq)
  have hlen := Json.scalar_length h
  have htoken : ∀ u ∈ token, (!isValueEnd u) = true := fun u hu => by simp [isValueEnd_bare (hbare u hu)]
  have hrest : r.takeWhile (fun u => !isValueEnd u) = [] := by
    cases r with
    | nil => rfl
    | cons d r => simp [hr.head rfl]
  have htake : (c :: t).takeWhile (fun u => !isValueEnd u) = token := by
    rw [hsplit, List.takeWhile_append_of_pos htoken, hrest, List.append_nil]
  have hdrop : (c :: t).dropWhile (fun u => !isValueEnd u) = r := by
    have := List.takeWhile_append_dropWhile (p := fun u => !isValueEnd u) (l := c :: t)
    rw [htake] at this
    exact List.append_cancel_left (this.trans hsplit)
  refine ⟨offset + token.length, by simp only [Cursor.skip, htake, hdrop], ?_⟩
  have := congrArg List.length hsplit
  simp only [List.length_append] at this
  omega

theorem scalar_head {c : CodeUnit} {t : Text} {x : Json ν × Text} (h : scalar (c :: t) = some x) :
    isValueEnd c = false := by
  by_cases hq : c = 0x22
  · subst hq; decide
  · obtain ⟨v, r⟩ := x
    obtain ⟨token, hsplit, hbare⟩ := Json.scalar_eq h (by simpa using hq)
    have hlen := Json.scalar_length h
    cases token with
    | nil => rw [hsplit] at hlen; simp at hlen
    | cons d token =>
        obtain ⟨rfl, _⟩ := List.cons.inj hsplit
        exact isValueEnd_bare (hbare c (by simp))

/-- A text with a value in front does not start with punctuation that ends one. -/
theorem value_head {f : Nat} {s : Text} {x : Json ν × Text} (h : value f s = some x) :
    ∃ c t, skipSpace s = c :: t ∧ isValueEnd c = false := by
  cases f with
  | zero => cases h
  | succ f =>
      simp only [value] at h
      split at h
      · cases h
      · rename_i c t hs
        refine ⟨c, t, hs, ?_⟩
        split at h
        · rename_i hc; subst hc; decide
        · split at h
          · rename_i hc; subst hc; decide
          · exact scalar_head h

theorem items_head {f : Nat} {s : Text} {x : List (Json ν) × Text} (h : items f s = some x) :
    ∃ c t, skipSpace s = c :: t ∧ isValueEnd c = false := by
  cases f with
  | zero => cases h
  | succ f =>
      simp only [items, Option.bind_eq_some_iff] at h
      obtain ⟨_, hv, _⟩ := h
      exact value_head hv

theorem stringToken_head {s : Text} {x : Text × Text} (h : stringToken s = some x) : ∃ t, s = 0x22 :: t := by
  cases s with
  | nil => cases h
  | cons c t =>
      simp only [stringToken] at h
      split at h
      · rename_i hc; exact ⟨t, by rw [hc]⟩
      · cases h

theorem members_head {f : Nat} {s : Text} {x : List (Text × Json ν) × Text} (h : members f s = some x) :
    ∃ t, skipSpace s = 0x22 :: t := by
  cases f with
  | zero => cases h
  | succ f =>
      simp only [members, Option.bind_eq_some_iff] at h
      obtain ⟨_, hk, _⟩ := h
      exact stringToken_head hk

variable (label maximumDepth) in
/-- A value that opens no container is passed over in one step. -/
theorem readValue_scalar (offset : Nat) {s t r : Text} {c : CodeUnit} {v : Json ν} (frames : List ContainerFrame)
    (hs : skipSpace s = c :: t) (hb : c ≠ unit '[') (hc : c ≠ unit '\x7b') (h : scalar (c :: t) = some (v, r))
    (hr : Delimited r) :
    ∃ offset', readValue label maximumDepth ⟨offset, s⟩ frames = .ok ⟨⟨offset', r⟩, frames⟩ := by
  have hrest : (skipWhitespace ⟨offset, s⟩).rest = c :: t := hs
  have hopen : ¬ (c = unit '\x7b' ∨ c = unit '[') := by simp [hb, hc]
  by_cases hq : c = 0x22
  · subst hq
    have hbody : ∃ text, stringToken (skipWhitespace ⟨offset, s⟩).rest = some (text, r) := by
      simp only [scalar, ↓reduceIte, Option.map_eq_some_iff, Prod.mk.injEq] at h
      obtain ⟨⟨text, r'⟩, hbody, _, rfl⟩ := h
      exact ⟨text, by rw [hrest, stringToken, if_pos rfl, hbody]⟩
    obtain ⟨text, htoken⟩ := hbody
    obtain ⟨token, offset', hread, _⟩ := readStringToken_of_stringToken label htoken
    refine ⟨offset', ?_⟩
    simp only [readValue, hrest, if_neg hopen, ↓reduceIte, hread, ok_bind, pure_eq_ok]
  · obtain ⟨offset', hskip, hne⟩ := skip_scalar (skipWhitespace ⟨offset, s⟩).offset h hq hr
    have hcursor : skipWhitespace ⟨offset, s⟩ = ⟨(skipWhitespace ⟨offset, s⟩).offset, c :: t⟩ := by rw [← hrest]
    refine ⟨offset', ?_⟩
    simp only [readValue, hrest, if_neg hopen, if_neg hq]
    rw [hcursor, hskip, if_neg hne]

/-! ## Turns of the loop -/

variable (label maximumDepth) in
theorem scanStep_close {c : Cursor} {frame : ContainerFrame} (below : List ContainerFrame) {rest : Text}
    (h : skipSpace c.rest = frame.kind.end :: rest) (hstate : frame.state ≠ .next) :
    ∃ offset, scanStep label maximumDepth c frame below = .ok ⟨⟨offset, rest⟩, below⟩ := by
  have hrest : (skipWhitespace c).rest = frame.kind.end :: rest := h
  have hadv : (skipWhitespace c).advance 1 = ⟨(skipWhitespace c).offset + 1, rest⟩ := by
    simp [Cursor.advance, hrest]
  refine ⟨(skipWhitespace c).offset + 1, ?_⟩
  cases hs : frame.state with
  | next => exact absurd hs hstate
  | first | after => simp [scanStep, hs, hrest, Cursor.head?, hadv]

variable (label maximumDepth) in
theorem scanStep_comma {c : Cursor} {frame : ContainerFrame} (below : List ContainerFrame) {rest : Text}
    (h : skipSpace c.rest = unit ',' :: rest) (hstate : frame.state = .after)
    (hnext : (skipSpace rest).head? ≠ some frame.kind.end) :
    ∃ offset, scanStep label maximumDepth c frame below =
      .ok ⟨⟨offset, skipSpace rest⟩, { frame with state := .next } :: below⟩ := by
  have hrest : (skipWhitespace c).rest = unit ',' :: rest := h
  have hend : ¬ unit ',' = frame.kind.end := by
    cases frame.kind with
    | object keys => exact (by decide : ¬ unit ',' = unit '\x7d')
    | array => exact (by decide : ¬ unit ',' = unit ']')
  have hadv : ((skipWhitespace c).advance 1).rest = rest := by simp [Cursor.advance, hrest]
  have hskip : (skipWhitespace ((skipWhitespace c).advance 1)).rest = skipSpace rest := by
    show skipSpace ((skipWhitespace c).advance 1).rest = _
    rw [hadv]
  have hhead : (skipWhitespace c).head? = some (unit ',') := by rw [Cursor.head?, hrest, List.head?_cons]
  have hhead' : ¬ (skipWhitespace ((skipWhitespace c).advance 1)).head? = some frame.kind.end := by
    rw [Cursor.head?, hskip]; exact hnext
  refine ⟨(skipWhitespace ((skipWhitespace c).advance 1)).offset, ?_⟩
  simp only [scanStep, hstate, hhead, hhead', hrest, hend, Option.some.injEq, ↓reduceIte, reduceCtorEq, false_and,
    ne_eq, not_true_eq_false, ← hskip]

theorem scanStep_array {c : Cursor} {state : FrameState} {below : List ContainerFrame} {d : CodeUnit} {t : Text}
    (hstate : state ≠ .after) (h : skipSpace c.rest = d :: t) (hd : d ≠ unit ']') :
    scanStep label maximumDepth c ⟨.array, state⟩ below =
      readValue label maximumDepth c (⟨.array, .after⟩ :: below) := by
  have hrest : (skipWhitespace c).rest = d :: t := h
  rw [← readValue_skipWhitespace]
  cases state with
  | after => exact absurd rfl hstate
  | first | next => simp [scanStep, hrest, Cursor.head?, FrameKind.end, hd]

theorem scanStep_object {c : Cursor} {state : FrameState} {below : List ContainerFrame} {keys : List Text}
    {d : CodeUnit} {t : Text} (hstate : state ≠ .after) (h : skipSpace c.rest = d :: t) (hd : d ≠ unit '\x7d') :
    scanStep label maximumDepth c ⟨.object keys, state⟩ below =
      readKey label keys (skipWhitespace c) >>= fun (keys, c) =>
        readValue label maximumDepth c (⟨.object keys, .after⟩ :: below) := by
  have hrest : (skipWhitespace c).rest = d :: t := h
  cases state with
  | after => exact absurd rfl hstate
  | first | next => simp [scanStep, hrest, Cursor.head?, FrameKind.end, hd]

variable (label) in
/-- A key that reads, with its colon: a duplicate fails and any other key joins the keys of the object. -/
theorem readKey_of_stringToken (keys : List Text) {c : Cursor} {k r rest : Text}
    (hk : stringToken c.rest = some (k, r)) (hr : skipSpace r = unit ':' :: rest) :
    (k ∈ keys → ∃ e, readKey label keys c = .error e) ∧
      (k ∉ keys → ∃ offset, readKey label keys c = .ok (k :: keys, ⟨offset, rest⟩)) := by
  obtain ⟨token, offset, htoken, hkey⟩ := readStringToken_of_stringToken label hk
  have hskip : (skipWhitespace ⟨offset, r⟩).rest = unit ':' :: rest := hr
  refine ⟨fun h => ?_, fun h => ?_⟩
  · simp only [readKey, htoken, ok_bind, hkey, if_pos h]
    exact ⟨_, rfl⟩
  · simp only [readKey, htoken, ok_bind, hkey, if_neg h, Cursor.head?, hskip, List.head?_cons, ↓reduceIte]
    exact ⟨(skipWhitespace ⟨offset, r⟩).offset + 1, by simp [Cursor.advance, hskip]⟩

/-! ## Values, elements and members -/

variable (label maximumDepth) in
/-- Opening a container decides whether one more fits. -/
theorem readValue_open {c : Cursor} {d : CodeUnit} {t : Text} (frames : List ContainerFrame)
    (h : skipSpace c.rest = d :: t) (hd : d = unit '\x7b' ∨ d = unit '[') :
    Decides label maximumDepth (Within maximumDepth (frames.length + 1)) (readValue label maximumDepth c frames) t
      (⟨if d = unit '\x7b' then .object [] else .array, .first⟩ :: frames) := by
  have hrest : (skipWhitespace c).rest = d :: t := h
  have hadv : (skipWhitespace c).advance 1 = ⟨(skipWhitespace c).offset + 1, t⟩ := by
    simp [Cursor.advance, hrest]
  simp only [readValue, hrest, if_pos hd, hadv]
  cases maximumDepth with
  | none => exact Decides.done (fun m hm => by cases hm) _
  | some maximum =>
      by_cases hm : maximum ≤ frames.length
      · simp only [if_pos hm]
        exact Decides.error (fun h => by have := h _ rfl; omega) _ _ _
      · simp only [if_neg hm]
        exact Decides.done (fun m hm' => by cases hm'; omega) _

theorem admitted_scalar {s r : Text} {v : Json ν} (h : scalar s = some (v, r)) {depth : Nat} :
    Within maximumDepth depth → Admitted maximumDepth depth v := by
  intro hd
  cases s with
  | nil => cases h
  | cons c t =>
      simp only [scalar] at h
      split_ifs at h
      all_goals
        simp only [Option.map_eq_some_iff, Prod.mk.injEq] at h
        obtain ⟨_, _, rfl, _⟩ := h
        exact ⟨by simpa [Json.depth] using hd, trivial⟩

/-- A container that closes right behind the text it is at. -/
theorem decides_close {ok : Prop} (hok : ok) {offset : Nat} {r rest : Text} {frame : ContainerFrame}
    {below : List ContainerFrame} (h : skipSpace r = frame.kind.end :: rest) (hstate : frame.state ≠ .next) :
    Decides label maximumDepth ok (scanStep label maximumDepth ⟨offset, r⟩ frame below) rest below := by
  obtain ⟨offset', hs⟩ := scanStep_close label maximumDepth (c := ⟨offset, r⟩) below h hstate
  rw [hs]
  exact Decides.done hok _

/-- What decides the text behind a comma decides from the comma on. -/
theorem decides_comma {ok : Prop} {offset : Nat} {r rest rest' : Text} {frame : ContainerFrame}
    {below below' : List ContainerFrame} (h : skipSpace r = unit ',' :: rest) (hstate : frame.state = .after)
    (hnext : (skipSpace rest).head? ≠ some frame.kind.end)
    (hs : ∀ offset, Decides label maximumDepth ok
      (scanStep label maximumDepth ⟨offset, skipSpace rest⟩ { frame with state := .next } below) rest' below') :
    Decides label maximumDepth ok (scanStep label maximumDepth ⟨offset, r⟩ frame below) rest' below' := by
  obtain ⟨offset', hc⟩ := scanStep_comma label maximumDepth (c := ⟨offset, r⟩) below h hstate hnext
  rw [hc]
  exact Decides.step (by rw [true_and]) (Decides.done trivial _) fun _ => hs

theorem delimited_of_cons {r rest : Text} {c : CodeUnit} (h : skipSpace r = c :: rest) (hc : isValueEnd c) :
    Delimited r := by
  intro d hd
  rw [h, List.head?_cons, Option.some.injEq] at hd
  exact hd ▸ hc

/-- The scanner decides the values that the grammar reads with a given fuel. -/
def DecidesValue (ν : Type) [JsonNumber ν] (label : Text) (maximumDepth : Option Nat) (f : Nat) : Prop :=
  ∀ s v r offset frames, value (ν := ν) f s = some (v, r) → Delimited r → Within maximumDepth frames.length →
    Decides label maximumDepth (Admitted maximumDepth frames.length v)
      (readValue label maximumDepth ⟨offset, s⟩ frames) r frames

def DecidesItems (ν : Type) [JsonNumber ν] (label : Text) (maximumDepth : Option Nat) (f : Nat) : Prop :=
  ∀ s vs r offset state below, items (ν := ν) f s = some (vs, r) → state ≠ .after →
    Within maximumDepth (below.length + 1) →
    Decides label maximumDepth (AdmittedItems maximumDepth (below.length + 1) vs)
      (scanStep label maximumDepth ⟨offset, s⟩ ⟨.array, state⟩ below) r below

def DecidesMembers (ν : Type) [JsonNumber ν] (label : Text) (maximumDepth : Option Nat) (f : Nat) : Prop :=
  ∀ s ms r offset keys state below, members (ν := ν) f s = some (ms, r) → state ≠ .after →
    Within maximumDepth (below.length + 1) →
    Decides label maximumDepth (AdmittedMembers maximumDepth (below.length + 1) keys ms)
      (scanStep label maximumDepth ⟨offset, s⟩ ⟨.object keys, state⟩ below) r below

theorem decidesValue_succ {f : Nat} (hItems : DecidesItems ν label maximumDepth f)
    (hMembers : DecidesMembers ν label maximumDepth f) : DecidesValue ν label maximumDepth (f + 1) := by
  intro s v r offset frames h hr hd
  simp only [value] at h
  split at h
  · cases h
  · rename_i c t hs
    have hopen := readValue_open label maximumDepth (c := ⟨offset, s⟩) frames hs
    split at h
    · rename_i hc
      subst hc
      specialize hopen (.inr rfl)
      simp only [show ¬ unit '[' = unit '\x7b' by decide, ↓reduceIte] at hopen
      split at h
      · cases h
      · rename_i d rest hrest
        split at h
        · rename_i hend
          simp only [Option.some.injEq, Prod.mk.injEq] at h
          obtain ⟨rfl, rfl⟩ := h
          refine Decides.step admitted_arr hopen fun hd _ => ?_
          exact decides_close (admittedItems_nil hd) (by rw [hrest, hend]; rfl) (by simp)
        · simp only [Option.map_eq_some_iff, Prod.mk.injEq] at h
          obtain ⟨⟨vs, r'⟩, hi, rfl, rfl⟩ := h
          rw [← hrest, items_skipSpace] at hi
          exact Decides.step admitted_arr hopen fun hd offset => hItems t vs r' offset .first frames hi (by simp) hd
    · split at h
      · rename_i hc
        subst hc
        specialize hopen (.inl rfl)
        simp only [↓reduceIte] at hopen
        split at h
        · cases h
        · rename_i d rest hrest
          split at h
          · rename_i hend
            simp only [Option.some.injEq, Prod.mk.injEq] at h
            obtain ⟨rfl, rfl⟩ := h
            refine Decides.step admitted_obj hopen fun hd _ => ?_
            exact decides_close (admittedMembers_nil hd) (by rw [hrest, hend]; rfl) (by simp)
          · simp only [Option.map_eq_some_iff, Prod.mk.injEq] at h
            obtain ⟨⟨ms, r'⟩, hm, rfl, rfl⟩ := h
            rw [← hrest, members_skipSpace] at hm
            exact Decides.step admitted_obj hopen fun hd offset =>
              hMembers t ms r' offset [] .first frames hm (by simp) hd
      · rename_i hb hc
        obtain ⟨offset', hread⟩ := readValue_scalar label maximumDepth offset frames hs hb hc h hr
        rw [hread]
        exact Decides.done (admitted_scalar h hd) _

theorem decidesItems_succ {f : Nat} (hValue : DecidesValue ν label maximumDepth f)
    (hItems : DecidesItems ν label maximumDepth f) : DecidesItems ν label maximumDepth (f + 1) := by
  intro s vs r offset state below h hstate hd
  simp only [items, Option.bind_eq_some_iff] at h
  obtain ⟨⟨v, r₁⟩, hv, h⟩ := h
  obtain ⟨c, t, hs, hc⟩ := value_head hv
  rw [scanStep_array hstate hs (by rintro rfl; revert hc; decide)]
  have hvalue (hr : Delimited r₁) := hValue s v r₁ offset (⟨.array, .after⟩ :: below) hv hr hd
  simp only at h
  split at h
  · cases h
  · rename_i d rest hrest
    split at h
    · rename_i hend
      subst hend
      simp only [Option.some.injEq, Prod.mk.injEq] at h
      obtain ⟨rfl, rfl⟩ := h
      refine Decides.step admittedItems_cons (hvalue (delimited_of_cons hrest (by decide))) fun _ _ => ?_
      exact decides_close (admittedItems_nil hd) hrest (by simp)
    · split at h
      · rename_i hcomma
        subst hcomma
        simp only [Option.map_eq_some_iff, Prod.mk.injEq] at h
        obtain ⟨⟨ws, r'⟩, hi, rfl, rfl⟩ := h
        obtain ⟨e, u, he, hne⟩ := items_head hi
        have hnext : (skipSpace rest).head? ≠ some (FrameKind.end .array) := by
          rw [he, List.head?_cons, ne_eq, Option.some.injEq]
          rintro rfl
          exact absurd hne (by decide)
        rw [← items_skipSpace] at hi
        refine Decides.step admittedItems_cons (hvalue (delimited_of_cons hrest (by decide))) fun _ _ => ?_
        exact decides_comma hrest rfl hnext fun offset => hItems _ ws r' offset .next below hi (by simp) hd
      · cases h

theorem decidesMembers_succ {f : Nat} (hValue : DecidesValue ν label maximumDepth f)
    (hMembers : DecidesMembers ν label maximumDepth f) : DecidesMembers ν label maximumDepth (f + 1) := by
  intro s ms r offset keys state below h hstate hd
  simp only [members, Option.bind_eq_some_iff] at h
  obtain ⟨⟨k, r₁⟩, hk, h⟩ := h
  obtain ⟨t, hs⟩ := stringToken_head hk
  simp only at h
  split at h
  · cases h
  · rename_i c₁ rest₁ hr₁
    split at h
    · rename_i hcolon
      subst hcolon
      simp only [Option.bind_eq_some_iff] at h
      obtain ⟨⟨v, r₂⟩, hv, h⟩ := h
      rw [scanStep_object hstate hs (by decide)]
      obtain ⟨hduplicate, hfresh⟩ := readKey_of_stringToken label keys
        (c := skipWhitespace ⟨offset, s⟩) hk hr₁
      by_cases hmem : k ∈ keys
      · obtain ⟨e, he⟩ := hduplicate hmem
        have hrefused : ∀ ms, ¬ AdmittedMembers maximumDepth (below.length + 1) keys ((k, v) :: ms) :=
          fun ms h => h.2.2.1 k (by simp) hmem
        rw [he, error_bind]
        simp only at h
        split at h
        · cases h
        · split at h
          · simp only [Option.some.injEq, Prod.mk.injEq] at h
            obtain ⟨rfl, rfl⟩ := h
            exact Decides.error (hrefused []) _ _ _
          · split at h
            · simp only [Option.map_eq_some_iff, Prod.mk.injEq] at h
              obtain ⟨⟨ms', r'⟩, _, rfl, rfl⟩ := h
              exact Decides.error (hrefused ms') _ _ _
            · cases h
      · obtain ⟨offset', hkey⟩ := hfresh hmem
        rw [hkey, ok_bind]
        have hvalue (hr : Delimited r₂) :=
          hValue rest₁ v r₂ offset' (⟨.object (k :: keys), .after⟩ :: below) hv hr hd
        simp only at h
        split at h
        · cases h
        · rename_i c₂ rest₂ hr₂
          split at h
          · rename_i hend
            subst hend
            simp only [Option.some.injEq, Prod.mk.injEq] at h
            obtain ⟨rfl, rfl⟩ := h
            refine Decides.step (admittedMembers_cons hmem) (hvalue (delimited_of_cons hr₂ (by decide)))
              fun _ _ => ?_
            exact decides_close (admittedMembers_nil hd) hr₂ (by simp)
          · split at h
            · rename_i hcomma
              subst hcomma
              simp only [Option.map_eq_some_iff, Prod.mk.injEq] at h
              obtain ⟨⟨ms', r'⟩, hm, rfl, rfl⟩ := h
              obtain ⟨u, hu⟩ := members_head hm
              have hnext : (skipSpace rest₂).head? ≠ some (FrameKind.end (.object (k :: keys))) := by
                rw [hu, List.head?_cons, ne_eq, Option.some.injEq]
                exact (by decide : ¬ (0x22 : CodeUnit) = unit '\x7d')
              rw [← members_skipSpace] at hm
              refine Decides.step (admittedMembers_cons hmem) (hvalue (delimited_of_cons hr₂ (by decide)))
                fun _ _ => ?_
              exact decides_comma hr₂ rfl hnext fun offset =>
                hMembers _ ms' r' offset (k :: keys) .next below hm (by simp) hd
            · cases h
    · cases h

variable (label maximumDepth) in
/-- Values, elements and members call each other at the fuel before. -/
theorem decides (f : Nat) : DecidesValue ν label maximumDepth f ∧ DecidesItems ν label maximumDepth f ∧
    DecidesMembers ν label maximumDepth f := by
  induction f with
  | zero =>
      refine ⟨fun s v r offset frames h => ?_, fun s vs r offset state below h => ?_,
        fun s ms r offset keys state below h => ?_⟩
      all_goals cases h
  | succ f ih =>
      obtain ⟨hValue, hItems, hMembers⟩ := ih
      exact ⟨decidesValue_succ hItems hMembers, decidesItems_succ hValue hItems,
        decidesMembers_succ hValue hMembers⟩

/-! ## Documents -/

variable (label maximumDepth) in
/-- The scanner ends on every text. -/
theorem scanDocument_terminates (source : Text) :
    ∃ result, scanDocument source label maximumDepth = some result := by
  unfold scanDocument
  cases h : readValue label maximumDepth ⟨0, source⟩ [] with
  | error e => exact ⟨_, rfl⟩
  | ok scanner => exact scanLoop_terminates (readValue_length h)

theorem parseExactJson_isSome (source label : Text) (contract : Option ExactJsonContract)
    (maximumDepth : Option JsNumber) : (parseExactJson (ν := ν) source label contract maximumDepth).isSome := by
  unfold parseExactJson
  split
  · rfl
  · obtain ⟨result, hresult⟩ := scanDocument_terminates label
      (maximumDepth.map positiveSafeInteger?).join source
    rw [hresult]
    rfl

theorem parseExactJson_plain_isSome (source label : Text) :
    (parseExactJson (ν := JsNumber) source label none none).isSome :=
  parseExactJson_isSome source label none none

variable (label) in
/-- On a document the scanner succeeds exactly when the tree is admitted, and then only white space is left. -/
theorem scanDocument_of_document {source : Text} {tree : Json ν} (h : Json.document source = some tree) :
    (Admitted maximumDepth 0 tree →
      ∃ c, scanDocument source label maximumDepth = some (.ok c) ∧ skipSpace c.rest = []) ∧
      (¬ Admitted maximumDepth 0 tree → ∃ e, scanDocument source label maximumDepth = some (.error e)) := by
  obtain ⟨f, r, hv, hr⟩ := Json.document_eq_some.mp h
  have hdecides := (decides label maximumDepth f).1 source tree r 0 [] hv
    (fun c hc => by rw [hr] at hc; cases hc) (fun m _ => Nat.zero_le m)
  have hscan : scanDocument source label maximumDepth =
      resume label maximumDepth source.length (readValue label maximumDepth ⟨0, source⟩ []) := by
    unfold scanDocument resume
    cases readValue label maximumDepth ⟨0, source⟩ [] <;> rfl
  obtain ⟨result, hresult⟩ := scanDocument_terminates label maximumDepth source
  have hmore (more : Nat) : resume label maximumDepth (source.length + more)
      (readValue label maximumDepth ⟨0, source⟩ []) = some result := by
    rw [hscan] at hresult
    cases hx : readValue label maximumDepth ⟨0, source⟩ [] with
    | error e => rw [hx] at hresult; exact hresult
    | ok scanner => rw [hx] at hresult; exact scanLoop_mono hresult more
  refine ⟨fun ha => ?_, fun ha => ?_⟩
  · obtain ⟨offset, turns, hturns⟩ := hdecides.1 ha
    have := hturns source.length
    rw [hmore turns, scanLoop] at this
    exact ⟨⟨offset, r⟩, by rw [hresult, this], hr⟩
  · obtain ⟨turns, e, hturns⟩ := hdecides.2 ha
    have := hturns source.length
    rw [hmore turns] at this
    exact ⟨e, by rw [hresult, this]⟩

end SecPlatform.Contracts
