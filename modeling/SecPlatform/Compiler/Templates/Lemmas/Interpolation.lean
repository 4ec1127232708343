import Mathlib.Data.List.TakeWhile
import SecPlatform.Compiler.Templates.Template

/-!
# The scan of the placeholders

The matcher finds the longest placeholder at a place, the search the first such place; the parts that are collected
are the text so far, and the bytes that are counted are its bytes.
-/

namespace SecPlatform.Compiler.Templates

open Contracts

variable {context : TemplateContext} {s key behind before body content text out part : Text} {n k : Nat}

/-! ## Placeholders -/

theorem isKeyUnit_of_isKeyStart {c : CodeUnit} (h : isKeyStart c) : isKeyUnit c := by
  rw [isKeyUnit, h, Bool.true_or]

theorem isTemplateContextKey_iff :
    isTemplateContextKey key ↔ key ≠ [] ∧ key.head?.any isKeyStart ∧ ∀ c ∈ key, isKeyUnit c := by
  cases key with
  | nil => simp [isTemplateContextKey]
  | cons c rest =>
      simp only [isTemplateContextKey, Bool.and_eq_true, List.all_eq_true, List.head?_cons, Option.any_some,
        List.forall_mem_cons]
      constructor
      · rintro ⟨hstart, hrest⟩
        exact ⟨List.cons_ne_nil _ _, hstart, isKeyUnit_of_isKeyStart hstart, hrest⟩
      · rintro ⟨-, hstart, -, hrest⟩
        exact ⟨hstart, hrest⟩

theorem closedKey_eq_none : closedKey body n = none ↔ ∀ j, 0 < j → j ≤ n → ¬PLACEHOLDER_MARK <+: body.drop j := by
  induction n with
  | zero =>
      refine ⟨fun _ j hpos hle => ?_, fun _ => rfl⟩
      exact absurd hle (Nat.not_le_of_gt hpos)
  | succ n ih =>
      unfold closedKey
      split
      · rename_i hmark
        refine ⟨nofun, fun h => ?_⟩
        exact absurd hmark (h (n + 1) (Nat.succ_pos n) le_rfl)
      · rename_i hmark
        rw [ih]
        refine ⟨fun h j hpos hle => ?_, fun h j hpos hle => h j hpos (Nat.le_succ_of_le hle)⟩
        rcases Nat.le_succ_iff.mp hle with hle | rfl
        · exact h j hpos hle
        · exact hmark

theorem closedKey_eq_some : closedKey body n = some k ↔ 0 < k ∧ k ≤ n ∧ PLACEHOLDER_MARK <+: body.drop k ∧
    ∀ j, k < j → j ≤ n → ¬PLACEHOLDER_MARK <+: body.drop j := by
  induction n with
  | zero =>
      refine ⟨nofun, ?_⟩
      rintro ⟨hpos, hle, -⟩
      exact absurd hle (Nat.not_le_of_gt hpos)
  | succ n ih =>
      unfold closedKey
      split
      · rename_i hmark
        rw [Option.some.injEq]
        constructor
        · rintro rfl
          exact ⟨Nat.succ_pos n, le_rfl, hmark, fun j hlt hle => absurd hle (Nat.not_le_of_gt hlt)⟩
        · rintro ⟨-, hle, -, hlast⟩
          by_contra hne
          exact hlast (n + 1) (by omega) le_rfl hmark
      · rename_i hmark
        rw [ih]
        refine and_congr_right fun _ => ?_
        constructor
        · rintro ⟨hle, hfound, hlast⟩
          refine ⟨Nat.le_succ_of_le hle, hfound, fun j hlt hj => ?_⟩
          rcases Nat.le_succ_iff.mp hj with hj | rfl
          · exact hlast j hlt hj
          · exact hmark
        · rintro ⟨hle, hfound, hlast⟩
          rcases Nat.le_succ_iff.mp hle with hle | rfl
          · exact ⟨hle, hfound, fun j hlt hj => hlast j hlt (Nat.le_succ_of_le hj)⟩
          · exact absurd hfound hmark

/-- A placeholder behind the opening mark, told by the length of its key. -/
theorem placeholderAt_mark : PlaceholderAt (PLACEHOLDER_MARK ++ body) key behind ↔
    body.head?.any isKeyStart ∧ 0 < key.length ∧ key.length ≤ (body.takeWhile isKeyUnit).length ∧
      PLACEHOLDER_MARK <+: body.drop key.length ∧ key = body.take key.length ∧
      behind = body.drop (key.length + PLACEHOLDER_MARK.length) := by
  unfold PlaceholderAt
  rw [List.append_cancel_left_eq, isTemplateContextKey_iff]
  constructor
  · rintro ⟨rfl, hne, hstart, hunits⟩
    have hpos := List.length_pos_iff.mpr hne
    refine ⟨?_, hpos, ?_, ?_, ?_, ?_⟩
    · rwa [List.head?_append_of_ne_nil _ hne]
    · rw [List.takeWhile_append_of_pos hunits, List.length_append]
      exact Nat.le_add_right _ _
    · rw [List.drop_left]
      exact List.prefix_append _ _
    · rw [List.take_left]
    · rw [← List.drop_drop, List.drop_left, List.drop_left]
  · rintro ⟨hstart, hpos, hle, hmark, hkey, rfl⟩
    obtain ⟨rest, hrest⟩ := hmark
    have hbody : body = key ++ (PLACEHOLDER_MARK ++ rest) := by
      rw [hrest]
      conv_lhs => rw [← List.take_append_drop key.length body, ← hkey]
    have hne : key ≠ [] := List.length_pos_iff.mp hpos
    refine ⟨?_, hne, ?_, ?_⟩
    · rw [← List.drop_drop, ← hrest, List.drop_left]
      exact hbody
    · rwa [hbody, List.head?_append_of_ne_nil _ hne] at hstart
    · intro c hc
      have hpre : key <+: body.takeWhile isKeyUnit :=
        List.prefix_of_prefix_length_le (hkey ▸ List.take_prefix _ _) (List.takeWhile_prefix _) hle
      exact List.mem_takeWhile_imp (hpre.subset hc)

theorem PlaceholderAt.mark (h : PlaceholderAt s key behind) : PLACEHOLDER_MARK <+: s := h.1 ▸ List.prefix_append _ _

theorem matchPlaceholder_eq_none : matchPlaceholder s = none ↔ ∀ key behind, ¬PlaceholderAt s key behind := by
  unfold matchPlaceholder
  split
  · rename_i hmark
    obtain ⟨body, rfl⟩ := hmark
    rw [List.drop_left]
    dsimp only
    constructor
    · intro h key behind hfound
      obtain ⟨hstart, hpos, hle, hclosed, -, -⟩ := placeholderAt_mark.mp hfound
      rw [if_pos hstart, Option.map_eq_none_iff, closedKey_eq_none] at h
      exact h _ hpos hle hclosed
    · intro h
      split
      · rename_i hstart
        rw [Option.map_eq_none_iff, closedKey_eq_none]
        intro j hpos hle hclosed
        have hlength : (body.take j).length = j :=
          List.length_take_of_le (hle.trans (List.takeWhile_prefix _).length_le)
        exact h (body.take j) _ (placeholderAt_mark.mpr ⟨hstart, by rwa [hlength], by rwa [hlength], by rwa [hlength],
          by rw [hlength], rfl⟩)
      · rfl
  · rename_i hmark
    refine ⟨fun _ key behind hfound => hmark hfound.mark, fun _ => rfl⟩

theorem matchPlaceholder_eq_some : matchPlaceholder s = some (key, behind) ↔ LongestAt s key behind := by
  unfold matchPlaceholder
  split
  · rename_i hmark
    obtain ⟨body, rfl⟩ := hmark
    rw [List.drop_left]
    dsimp only
    constructor
    · intro h
      split at h
      · rename_i hstart
        obtain ⟨k, hclosed, hfound⟩ := Option.map_eq_some_iff.mp h
        cases hfound
        obtain ⟨hpos, hle, hmark, hlast⟩ := closedKey_eq_some.mp hclosed
        have hlength : (body.take k).length = k :=
          List.length_take_of_le (hle.trans (List.takeWhile_prefix _).length_le)
        refine ⟨placeholderAt_mark.mpr ⟨hstart, by rwa [hlength], by rwa [hlength], by rwa [hlength], by rw [hlength],
          by rw [hlength]⟩, fun key' behind' hother => ?_⟩
        obtain ⟨-, -, hle', hmark', -, -⟩ := placeholderAt_mark.mp hother
        rw [hlength]
        by_contra hlt
        exact hlast _ (Nat.lt_of_not_le hlt) hle' hmark'
      · cases h
    · rintro ⟨hfound, hlongest⟩
      obtain ⟨hstart, hpos, hle, hclosed, hkey, hbehind⟩ := placeholderAt_mark.mp hfound
      rw [if_pos hstart, Option.map_eq_some_iff]
      refine ⟨key.length, closedKey_eq_some.mpr ⟨hpos, hle, hclosed, fun j hlt hj hother => ?_⟩, by rw [← hkey, ← hbehind]⟩
      -- a longer key would be a placeholder too
      have hlength : (body.take j).length = j := List.length_take_of_le (hj.trans (List.takeWhile_prefix _).length_le)
      have hplaceholder : PlaceholderAt (PLACEHOLDER_MARK ++ body) (body.take j) (body.drop (j + PLACEHOLDER_MARK.length)) :=
        placeholderAt_mark.mpr ⟨hstart, by rw [hlength]; omega, by rwa [hlength], by rwa [hlength], by rw [hlength],
          by rw [hlength]⟩
      have hshort := hlongest _ _ hplaceholder
      rw [hlength] at hshort
      omega
  · rename_i hmark
    refine ⟨nofun, fun h => absurd h.found.mark hmark⟩

/-! ## The first placeholder -/

theorem freeUpTo_succ {c : CodeUnit} : FreeUpTo (n + 1) (c :: s) ↔
    (∀ key behind, ¬PlaceholderAt (c :: s) key behind) ∧ FreeUpTo n s := by
  constructor
  · intro h
    exact ⟨h 0 (Nat.succ_pos n), fun i hi => h (i + 1) (Nat.succ_lt_succ hi)⟩
  · rintro ⟨hfirst, hrest⟩ i hi
    cases i with
    | zero => exact hfirst
    | succ i => exact hrest i (Nat.lt_of_succ_lt_succ hi)

theorem nextPlaceholder_eq_none : nextPlaceholder s = none ↔ FreeUpTo s.length s := by
  induction s with
  | nil => exact ⟨fun _ i hi => absurd hi (Nat.not_lt_zero i), fun _ => rfl⟩
  | cons c rest ih =>
      rw [List.length_cons, freeUpTo_succ, ← matchPlaceholder_eq_none]
      unfold nextPlaceholder
      split
      · rename_i hmatch
        simp [hmatch]
      · rename_i hmatch
        simp [hmatch, ih]

theorem nextPlaceholder_eq_some : nextPlaceholder content = some (before, key, behind) ↔
    ∃ s, content = before ++ s ∧ FreeUpTo before.length content ∧ LongestAt s key behind := by
  induction content generalizing before with
  | nil =>
      refine ⟨nofun, ?_⟩
      rintro ⟨s, hs, -, hlongest⟩
      obtain ⟨-, rfl⟩ := List.append_eq_nil_iff.mp hs.symm
      exact absurd hlongest.found.mark (by decide)
  | cons c rest ih =>
      unfold nextPlaceholder
      split
      · rename_i key' behind' hmatch
        have hfirst := matchPlaceholder_eq_some.mp hmatch
        constructor
        · intro h
          cases h
          exact ⟨c :: rest, rfl, fun i hi => absurd hi (Nat.not_lt_zero i), hfirst⟩
        · rintro ⟨s, hs, hfree, hlongest⟩
          cases before with
          | nil =>
              rw [List.nil_append] at hs
              rw [hs, matchPlaceholder_eq_some.mpr hlongest] at hmatch
              cases hmatch
              rfl
          | cons d before => exact absurd hfirst.found (hfree 0 (Nat.succ_pos _) _ _)
      · rename_i hmatch
        have hnot := matchPlaceholder_eq_none.mp hmatch
        rw [Option.map_eq_some_iff]
        constructor
        · rintro ⟨⟨b, k, r⟩, hnext, hfound⟩
          cases hfound
          obtain ⟨s, rfl, hfree, hlongest⟩ := ih.mp hnext
          exact ⟨s, rfl, freeUpTo_succ.mpr ⟨hnot, hfree⟩, hlongest⟩
        · rintro ⟨s, hs, hfree, hlongest⟩
          cases before with
          | nil =>
              rw [List.nil_append] at hs
              rw [← hs] at hlongest
              exact absurd hlongest.found (hnot _ _)
          | cons d before =>
              obtain ⟨rfl, rfl⟩ := List.cons.inj hs
              exact ⟨(before, key, behind), ih.mpr ⟨s, rfl, (freeUpTo_succ.mp hfree).2, hlongest⟩, rfl⟩

/-! ## The parts -/

/-- The parts are the text, and its bytes have been counted. -/
structure Rendering.Holds (state : Rendering) (text : Text) : Prop where
  parts : state.parts.flatten = text
  outputBytes : state.outputBytes = text.utf8Length
  trailing : state.trailingHighSurrogate = text.getLast?.any Text.isLeadSurrogate
  bound : text.utf8Length ≤ TEMPLATE_MAX_OUTPUT_BYTES

variable {state next : Rendering}

theorem Rendering.outputBytes_append (hstate : state.Holds text) (part : Text) :
    state.outputBytes + (part.utf8Length - if state.trailingHighSurrogate && part.head?.any Text.isTrailSurrogate then 2
      else 0) = (text ++ part).utf8Length := by
  rw [hstate.outputBytes, hstate.trailing]
  have happend := Text.utf8Length_append text part
  have hle := Text.le_utf8Length_of_joins text part
  rw [Text.joins] at happend hle
  omega

theorem Rendering.append_holds (hstate : state.Holds text) (h : state.append part = .ok next) :
    next.Holds (text ++ part) := by
  unfold Rendering.append at h
  split at h
  · rename_i hnil
    cases h
    rwa [hnil, List.append_nil]
  · rename_i hne
    dsimp only at h
    rw [Rendering.outputBytes_append hstate] at h
    obtain ⟨hbound, h⟩ := check_bind_eq_ok.mp h
    cases h
    refine ⟨?_, rfl, ?_, require_eq_ok.mp hbound⟩
    · rw [List.flatten_append, hstate.parts, List.flatten_singleton]
    · rw [List.getLast?_append_of_ne_nil _ hne]

theorem Rendering.append_of_bound (hstate : state.Holds text)
    (hbound : (text ++ part).utf8Length ≤ TEMPLATE_MAX_OUTPUT_BYTES) : ∃ next, state.append part = .ok next := by
  unfold Rendering.append
  split
  · exact ⟨state, rfl⟩
  · dsimp only
    rw [Rendering.outputBytes_append hstate, require, if_pos hbound]
    exact ⟨_, rfl⟩

/-! ## The loop over the placeholders -/

theorem placeholderValue_ok : placeholderValue key context = .ok out ↔
    ∃ value, context.get? key = some value ∧ value.text? = some out := by
  unfold placeholderValue
  split
  · rename_i hnone
    simp [hnone, failWith]
  · rename_i value hvalue
    split
    · rename_i shown hshown
      simp [hvalue, hshown]
    · rename_i hshown
      simp [hvalue, hshown, failWith]

/-- The meaning of a text by its first placeholder. -/
theorem interpolates_iff : Interpolates context content out ↔ (nextPlaceholder content = none ∧ out = content) ∨
    ∃ before key behind value rest, nextPlaceholder content = some (before, key, behind) ∧
      placeholderValue key context = .ok value ∧ Interpolates context behind rest ∧ out = before ++ (value ++ rest) := by
  constructor
  · intro h
    cases h with
    | plain hfree => exact .inl ⟨nextPlaceholder_eq_none.mpr hfree, rfl⟩
    | placeholder hfree hkey hvalue htext hrest =>
        exact .inr ⟨_, _, _, _, _, nextPlaceholder_eq_some.mpr ⟨_, rfl, hfree, hkey⟩,
          placeholderValue_ok.mpr ⟨_, hvalue, htext⟩, hrest, rfl⟩
  · rintro (⟨hnone, rfl⟩ | ⟨before, key, behind, value, rest, hsome, hvalue, hrest, rfl⟩)
    · exact .plain (nextPlaceholder_eq_none.mp hnone)
    · obtain ⟨s, rfl, hfree, hkey⟩ := nextPlaceholder_eq_some.mp hsome
      obtain ⟨member, hmember, htext⟩ := placeholderValue_ok.mp hvalue
      exact .placeholder hfree hkey hmember htext hrest

theorem interpolateFrom_ok (hstate : state.Holds text) : interpolateFrom context content state = .ok out ↔
    ∃ shown, Interpolates context content shown ∧ out = text ++ shown ∧ out.utf8Length ≤ TEMPLATE_MAX_OUTPUT_BYTES := by
  induction hlength : content.length using Nat.strong_induction_on generalizing content state text with
  | _ n ih =>
      subst hlength
      rw [interpolateFrom.eq_def]
      split
      · rename_i hnone
        constructor
        · intro h
          obtain ⟨last, hlast, h⟩ := bind_eq_ok.mp h
          cases h
          have hholds := Rendering.append_holds hstate hlast
          exact ⟨content, interpolates_iff.mpr (.inl ⟨hnone, rfl⟩), hholds.parts, hholds.parts ▸ hholds.bound⟩
        · rintro ⟨shown, hshown, rfl, hbound⟩
          rcases interpolates_iff.mp hshown with ⟨-, rfl⟩ | ⟨before, key, behind, value, rest, hsome, -⟩
          · obtain ⟨last, hlast⟩ := Rendering.append_of_bound hstate hbound
            rw [hlast, ok_bind, ← (Rendering.append_holds hstate hlast).parts]
            rfl
          · rw [hnone] at hsome
            cases hsome
      · rename_i before key behind hsome
        have ih := @ih _ (length_nextPlaceholder hsome) behind
        constructor
        · intro h
          obtain ⟨literal, hliteral, h⟩ := bind_eq_ok.mp h
          obtain ⟨value, hvalue, h⟩ := bind_eq_ok.mp h
          obtain ⟨substituted, hsubstituted, h⟩ := bind_eq_ok.mp h
          have hholds := Rendering.append_holds (Rendering.append_holds hstate hliteral) hsubstituted
          obtain ⟨rest, hrest, rfl, hbound⟩ := (ih hholds rfl).mp h
          refine ⟨before ++ (value ++ rest), interpolates_iff.mpr (.inr ⟨before, key, behind, value, rest, hsome, hvalue,
            hrest, rfl⟩), ?_, hbound⟩
          simp only [List.append_assoc]
        · rintro ⟨shown, hshown, rfl, hbound⟩
          rcases interpolates_iff.mp hshown with ⟨hnone, -⟩ | ⟨before', key', behind', value, rest, hsome', hvalue, hrest, rfl⟩
          · rw [hnone] at hsome
            cases hsome
          · rw [hsome] at hsome'
            cases hsome'
            have hsplit : text ++ (before ++ (value ++ rest)) = (text ++ before) ++ value ++ rest := by
              simp only [List.append_assoc]
            have hbound' := (Text.utf8Length_le_append _ rest).trans (hsplit ▸ hbound)
            obtain ⟨literal, hliteral⟩ := Rendering.append_of_bound hstate
              ((Text.utf8Length_le_append (text ++ before) value).trans hbound')
            have hholds := Rendering.append_holds hstate hliteral
            obtain ⟨substituted, hsubstituted⟩ := Rendering.append_of_bound hholds hbound'
            rw [hliteral, ok_bind, hvalue, ok_bind, hsubstituted, ok_bind]
            exact (ih (Rendering.append_holds hholds hsubstituted) rfl).mpr ⟨rest, hrest, hsplit, hbound⟩

theorem interpolate_ok : interpolate content context = .ok out ↔
    Interpolates context content out ∧ out.utf8Length ≤ TEMPLATE_MAX_OUTPUT_BYTES := by
  have hstate : Rendering.Holds ⟨[], 0, false⟩ [] := ⟨rfl, rfl, rfl, Nat.zero_le _⟩
  unfold interpolate
  rw [interpolateFrom_ok hstate]
  constructor
  · rintro ⟨shown, hshown, rfl, hbound⟩
    exact ⟨hshown, hbound⟩
  · rintro ⟨hshown, hbound⟩
    exact ⟨out, hshown, rfl, hbound⟩

end SecPlatform.Compiler.Templates
