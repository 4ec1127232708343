import SecPlatform.Contracts.ExactJson
import SecPlatform.Library.Except
import SecPlatform.Library.Lemmas.Lexing

/-!
# The scanner of exact JSON documents

Every turn of the loop consumes text, so the bound on its turns is enough. On the text of one value the
scanner ends exactly behind that value when the value is admitted, and fails otherwise.
-/

namespace SecPlatform.Contracts

variable {label : Text} {maximumDepth : Option Nat}

/-! ## Consumption -/

theorem skip_length_le (p : CodeUnit → Bool) (c : Cursor) : (c.skip p).rest.length ≤ c.rest.length :=
  (List.dropWhile_suffix _).length_le

theorem advance_length (c : Cursor) : (c.advance 1).rest.length = c.rest.length - 1 := by
  simp [Cursor.advance]

theorem fail_ne_ok {α : Type} {kind message offset} {a : α} : fail label kind message offset ≠ .ok a := by
  simp [fail]

theorem stringTokenLoop_length {start offset : Nat} {s token : Text} {c : Cursor}
    (h : stringTokenLoop label start offset s = .ok (token, c)) : c.rest.length < s.length := by
  fun_induction stringTokenLoop label start offset s generalizing token c with
  | case1 => cases h
  | case2 => cases h; simp
  | case3 => cases h
  | case4 offset h₁ h₂ h₃ h₄ rest _ ih =>
      simp only [bind_eq_ok, pure_eq_ok, Except.ok.injEq, Prod.mk.injEq] at h
      obtain ⟨⟨token', c'⟩, hr, _, rfl⟩ := h
      have := ih hr
      simp only [List.length_cons]
      omega
  | case5 => cases h
  | case6 offset e rest _ _ ih =>
      simp only [bind_eq_ok, pure_eq_ok, Except.ok.injEq, Prod.mk.injEq] at h
      obtain ⟨⟨token', c'⟩, hr, _, rfl⟩ := h
      have := ih hr
      simp only [List.length_cons]
      omega
  | case7 => cases h
  | case8 offset character rest _ _ _ ih =>
      simp only [bind_eq_ok, pure_eq_ok, Except.ok.injEq, Prod.mk.injEq] at h
      obtain ⟨⟨token', c'⟩, hr, _, rfl⟩ := h
      have := ih hr
      simp only [List.length_cons]
      omega

theorem readStringToken_length {c c' : Cursor} {token : Text} (h : readStringToken label c = .ok (token, c')) :
    c'.rest.length < c.rest.length := by
  unfold readStringToken at h
  split at h
  · rename_i character rest hc
    split at h
    · simp only [bind_eq_ok, pure_eq_ok, Except.ok.injEq, Prod.mk.injEq] at h
      obtain ⟨⟨token', c''⟩, hr, _, rfl⟩ := h
      have := stringTokenLoop_length hr
      simp only [hc, List.length_cons]
      omega
    · cases h
  · cases h

theorem readValue_length {c : Cursor} {frames : List ContainerFrame} {scanner : Scanner}
    (h : readValue label maximumDepth c frames = .ok scanner) : scanner.cursor.rest.length < c.rest.length := by
  have hle : (skipWhitespace c).rest.length ≤ c.rest.length := skip_length_le _ c
  unfold readValue at h
  dsimp only at h
  generalize skipWhitespace c = d at h hle
  have hadv := advance_length d
  split at h
  · cases h
  · rename_i character rest hd
    have hpos : 0 < d.rest.length := by simp [hd]
    split at h
    · split at h
      · split at h
        · cases h
        · cases h; simp only; omega
      · cases h; simp only; omega
    · split at h
      · simp only [bind_eq_ok, pure_eq_ok, Except.ok.injEq] at h
        obtain ⟨⟨token, c'⟩, hr, rfl⟩ := h
        have := readStringToken_length hr
        simp only; omega
      · split at h
        · cases h
        · rename_i hne
          cases h
          simp only [Cursor.skip] at hne ⊢
          have := congrArg List.length (List.takeWhile_append_dropWhile (p := fun u => !isValueEnd u) (l := d.rest))
          simp only [List.length_append] at this
          omega

theorem readKey_length {keys keys' : List Text} {c c' : Cursor} (h : readKey label keys c = .ok (keys', c')) :
    c'.rest.length < c.rest.length := by
  simp only [readKey, bind_eq_ok] at h
  obtain ⟨⟨token, d⟩, hr, key, _, h⟩ := h
  have hlt := readStringToken_length hr
  split at h
  · cases h
  · split at h
    · cases h
      have hle := skip_length_le Json.isSpace d
      have hadv := advance_length (skipWhitespace d)
      simp only [skipWhitespace] at hadv ⊢
      omega
    · cases h

/-- A turn of the loop that does not fail consumes text. -/
theorem scanStep_length {c : Cursor} {frame : ContainerFrame} {below : List ContainerFrame} {scanner : Scanner}
    (h : scanStep label maximumDepth c frame below = .ok scanner) :
    scanner.cursor.rest.length < c.rest.length := by
  have hle : (skipWhitespace c).rest.length ≤ c.rest.length := skip_length_le _ c
  unfold scanStep at h
  dsimp only at h
  generalize skipWhitespace c = d at h hle
  have hadv := advance_length d
  have hpos : ∀ u, d.head? = some u → 0 < d.rest.length := by
    intro u hu
    cases hd : d.rest with
    | nil => simp [Cursor.head?, hd] at hu
    | cons _ _ => simp
  split at h
  · cases h
  · split at h
    · split at h
      · rename_i hend
        have := hpos _ hend
        cases h; simp only; omega
      · split at h
        · cases h
        · rename_i hcomma
          have := hpos _ (not_not.mp hcomma)
          split at h
          · cases h
          · cases h
            have := skip_length_le Json.isSpace (d.advance 1)
            simp only [skipWhitespace]
            omega
    · split at h
      · rename_i hend
        have := hpos _ hend.2
        cases h; simp only; omega
      · split at h
        · have := readValue_length h; omega
        · simp only [bind_eq_ok] at h
          obtain ⟨⟨keys', d'⟩, hk, h⟩ := h
          have hkey := readKey_length hk
          have hvalue := readValue_length h
          simp only at hvalue
          omega

/-- The loop ends within one turn more than code units are left. -/
theorem scanLoop_terminates {fuel : Nat} {scanner : Scanner} (h : scanner.cursor.rest.length < fuel) :
    ∃ result, scanLoop label maximumDepth fuel scanner = some result := by
  induction fuel generalizing scanner with
  | zero => omega
  | succ fuel ih =>
      obtain ⟨c, frames⟩ := scanner
      cases frames with
      | nil => exact ⟨_, by rw [scanLoop]⟩
      | cons frame below =>
          rw [scanLoop]
          cases hs : scanStep label maximumDepth c frame below with
          | error e => exact ⟨_, rfl⟩
          | ok next =>
              have := scanStep_length hs
              exact ih (by simp only at h; omega)

/-- More turns do not change how the loop ends. -/
theorem scanLoop_mono {fuel : Nat} {scanner : Scanner} {result}
    (h : scanLoop label maximumDepth fuel scanner = some result) (more : Nat) :
    scanLoop label maximumDepth (fuel + more) scanner = some result := by
  induction fuel generalizing scanner with
  | zero =>
      obtain ⟨c, frames⟩ := scanner
      cases frames with
      | nil => rw [scanLoop] at h ⊢; exact h
      | cons frame below => rw [scanLoop] at h; cases h
  | succ fuel ih =>
      obtain ⟨c, frames⟩ := scanner
      cases frames with
      | nil => rw [scanLoop] at h ⊢; exact h
      | cons frame below =>
          rw [Nat.add_right_comm, scanLoop]
          rw [scanLoop] at h
          cases hs : scanStep label maximumDepth c frame below with
          | error e => rw [hs] at h; exact h
          | ok next => rw [hs] at h; exact ih h

/-! ## Runs -/

/-- The loop after a step that may have failed. -/
def resume (label : Text) (maximumDepth : Option Nat) (fuel : Nat) :
    Except ExactJsonFailure Scanner → Option (Except ExactJsonFailure Cursor)
  | .error e => some (.error e)
  | .ok scanner => scanLoop label maximumDepth fuel scanner

/-- From the result of a step, the loop comes to a scanner. -/
def Reaches (label : Text) (maximumDepth : Option Nat) (x : Except ExactJsonFailure Scanner)
    (scanner : Scanner) : Prop :=
  ∃ turns, ∀ fuel, resume label maximumDepth (fuel + turns) x = scanLoop label maximumDepth fuel scanner

/-- From the result of a step, the loop comes to a failure. -/
def Fails (label : Text) (maximumDepth : Option Nat) (x : Except ExactJsonFailure Scanner) : Prop :=
  ∃ turns e, ∀ fuel, resume label maximumDepth (fuel + turns) x = some (.error e)

theorem scanLoop_succ (fuel : Nat) (c : Cursor) (frame : ContainerFrame) (below : List ContainerFrame) :
    scanLoop label maximumDepth (fuel + 1) ⟨c, frame :: below⟩ =
      resume label maximumDepth fuel (scanStep label maximumDepth c frame below) := by
  rw [scanLoop]
  cases scanStep label maximumDepth c frame below <;> rfl

theorem Reaches.refl (scanner : Scanner) : Reaches label maximumDepth (.ok scanner) scanner :=
  ⟨0, fun _ => rfl⟩

/-- A run that comes to a scanner goes on with its next turn. -/
theorem Reaches.step {x : Except ExactJsonFailure Scanner} {c : Cursor} {frame : ContainerFrame}
    {below : List ContainerFrame} {scanner : Scanner} (h : Reaches label maximumDepth x ⟨c, frame :: below⟩)
    (hs : Reaches label maximumDepth (scanStep label maximumDepth c frame below) scanner) :
    Reaches label maximumDepth x scanner := by
  obtain ⟨m, hm⟩ := h
  obtain ⟨n, hn⟩ := hs
  refine ⟨n + 1 + m, fun fuel => ?_⟩
  rw [← Nat.add_assoc, hm, ← Nat.add_assoc, scanLoop_succ, hn]

theorem Reaches.fails {x : Except ExactJsonFailure Scanner} {c : Cursor} {frame : ContainerFrame}
    {below : List ContainerFrame} (h : Reaches label maximumDepth x ⟨c, frame :: below⟩)
    (hs : Fails label maximumDepth (scanStep label maximumDepth c frame below)) : Fails label maximumDepth x := by
  obtain ⟨m, hm⟩ := h
  obtain ⟨n, e, hn⟩ := hs
  refine ⟨n + 1 + m, e, fun fuel => ?_⟩
  rw [← Nat.add_assoc, hm, ← Nat.add_assoc, scanLoop_succ, hn]

theorem fails_error (e : ExactJsonFailure) : Fails label maximumDepth (.error e) := ⟨0, e, fun _ => rfl⟩

/-- The loop ends behind `rest` over the frames `below` when `ok` holds, and fails otherwise. -/
def Decides (label : Text) (maximumDepth : Option Nat) (ok : Prop) (x : Except ExactJsonFailure Scanner)
    (rest : Text) (below : List ContainerFrame) : Prop :=
  (ok → ∃ offset, Reaches label maximumDepth x ⟨⟨offset, rest⟩, below⟩) ∧ (¬ ok → Fails label maximumDepth x)

/-- A first part of a run decides one condition, what follows decides another. -/
theorem Decides.step {ok₁ ok₂ ok : Prop} {x : Except ExactJsonFailure Scanner} {rest rest' : Text}
    {frame : ContainerFrame} {below below' : List ContainerFrame} (hok : ok ↔ ok₁ ∧ ok₂)
    (h : Decides label maximumDepth ok₁ x rest (frame :: below))
    (hs : ok₁ → ∀ offset,
      Decides label maximumDepth ok₂ (scanStep label maximumDepth ⟨offset, rest⟩ frame below) rest' below') :
    Decides label maximumDepth ok x rest' below' := by
  by_cases h₁ : ok₁
  · obtain ⟨offset, hr⟩ := h.1 h₁
    refine ⟨fun h' => ?_, fun h' => ?_⟩
    · obtain ⟨offset', hr'⟩ := (hs h₁ offset).1 (hok.mp h').2
      exact ⟨offset', hr.step hr'⟩
    · exact hr.fails ((hs h₁ offset).2 fun h₂ => h' (hok.mpr ⟨h₁, h₂⟩))
  · exact ⟨fun h' => absurd (hok.mp h').1 h₁, fun _ => h.2 h₁⟩

theorem Decides.of_iff {ok ok' : Prop} {x : Except ExactJsonFailure Scanner} {rest : Text}
    {below : List ContainerFrame} (hok : ok ↔ ok') (h : Decides label maximumDepth ok x rest below) :
    Decides label maximumDepth ok' x rest below :=
  ⟨fun h' => h.1 (hok.mpr h'), fun h' => h.2 fun h'' => h' (hok.mp h'')⟩

/-- A step without further turns decides the trivial condition. -/
theorem Decides.done {ok : Prop} (h : ok) (scanner : Scanner) :
    Decides label maximumDepth ok (.ok scanner) scanner.cursor.rest scanner.frames :=
  ⟨fun _ => ⟨scanner.cursor.offset, Reaches.refl scanner⟩, fun h' => absurd h h'⟩

theorem Decides.error {ok : Prop} (h : ¬ ok) (e : ExactJsonFailure) (rest : Text) (below : List ContainerFrame) :
    Decides label maximumDepth ok (.error e) rest below :=
  ⟨fun h' => absurd h' h, fun _ => fails_error e⟩

end SecPlatform.Contracts
