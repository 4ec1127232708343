import SecPlatform.Compiler.Templates.Lemmas.PrismaBlocks

/-!
# Merging the members of a block

What is known after some lines is what they declare. Two bodies are merged exactly if they go together, and the lines
that are added are the new ones.
-/

namespace SecPlatform.Compiler.Templates

open Contracts

variable {enumeration : Bool} {label line name text : Text} {lines known comments existing template : List Text}
  {k k' : KnownMembers} {s s' : Additions}

theorem declaration_member : declaration enumeration line = some (.member name) ↔
    ¬IsSilent line ∧ isAttribute enumeration line.trim = false ∧ memberName enumeration line.trim = some name := by
  unfold declaration
  split
  · rename_i h
    simp [h]
  · rename_i h
    split
    · rename_i h'
      simp [h']
    · rename_i h'
      simp [h, h']

theorem declaration_attribute : declaration enumeration line = some (.attribute text) ↔
    ¬IsSilent line ∧ isAttribute enumeration line.trim ∧ line.trim = text := by
  unfold declaration
  split
  · rename_i h
    simp [h]
  · rename_i h
    split
    · rename_i h'
      simp [h, h']
    · rename_i h'
      simp [h']

theorem declaration_none (hsilent : ¬IsSilent line) (hattribute : ¬isAttribute enumeration line.trim)
    (hname : memberName enumeration line.trim = none) : declaration enumeration line = none := by
  rw [declaration, if_neg hsilent, if_neg hattribute, hname]
  rfl

/-- What is known is what the lines declare. -/
structure Holds (enumeration : Bool) (k : KnownMembers) (lines : List Text) : Prop where
  members : ∀ name text, k.members.lookup name = some text ↔
    ∃ line ∈ lines, declaration enumeration line = some (.member name) ∧ line.trim = text
  attributes : ∀ text, text ∈ k.attributes ↔ ∃ line ∈ lines, declaration enumeration line = some (.attribute text)

theorem holds_nil (enumeration : Bool) : Holds enumeration ⟨[], []⟩ [] :=
  ⟨fun _ _ => by simp, fun _ => by simp⟩

theorem Holds.agree (h : Holds enumeration k lines) : Agree enumeration lines := by
  intro line hline other hother name hmember hmember'
  have hlookup := (h.members name line.trim).mpr ⟨line, hline, hmember, rfl⟩
  rw [(h.members name other.trim).mpr ⟨other, hother, hmember', rfl⟩] at hlookup
  exact (Option.some.inj hlookup).symm

theorem Agree.mono {others : List Text} (h : Agree enumeration lines) (hsub : ∀ line ∈ others, line ∈ lines ∨ IsSilent line) :
    Agree enumeration others := by
  have hmem : ∀ line ∈ others, ∀ name, declaration enumeration line = some (.member name) → line ∈ lines :=
    fun line hline name hmember => (hsub line hline).resolve_right (declaration_member.mp hmember).1
  intro line hline other hother name hmember hmember'
  exact h line (hmem line hline name hmember) other (hmem other hother name hmember') name hmember hmember'

/-! ## One line more -/

theorem Holds.silent (h : Holds enumeration k lines) (hline : IsSilent line) : Holds enumeration k (lines ++ [line]) := by
  have hnone : declaration enumeration line = none := if_pos hline
  refine ⟨fun name text => ?_, fun text => ?_⟩
  · rw [h.members]
    simp [or_and_right, exists_or, hnone]
  · rw [h.attributes]
    simp [or_and_right, exists_or, hnone]

theorem Holds.unsupported (h : Holds enumeration k lines) (hline : declaration enumeration line = none) :
    Holds enumeration k (lines ++ [line]) := by
  refine ⟨fun name text => ?_, fun text => ?_⟩
  · rw [h.members]
    simp [or_and_right, exists_or, hline]
  · rw [h.attributes]
    simp [or_and_right, exists_or, hline]

theorem Holds.addAttribute (h : Holds enumeration k lines) (hline : declaration enumeration line = some (.attribute text)) :
    Holds enumeration (k.addAttribute text) (lines ++ [line]) := by
  unfold KnownMembers.addAttribute
  refine ⟨fun name text' => ?_, fun text' => ?_⟩
  · have hmembers : (if text ∈ k.attributes then k else { k with attributes := k.attributes ++ [text] }).members = k.members := by
      split <;> rfl
    rw [hmembers, h.members]
    simp [or_and_right, exists_or, hline]
  · have hmem : text' ∈ (if text ∈ k.attributes then k else { k with attributes := k.attributes ++ [text] }).attributes ↔
        text' ∈ k.attributes ∨ text' = text := by
      split
      · rename_i hin
        refine ⟨.inl, ?_⟩
        rintro (hin' | rfl)
        · exact hin'
        · exact hin
      · simp
    rw [hmem, h.attributes]
    simp [or_and_right, exists_or, hline, eq_comm]

theorem isNew_attribute (h : Holds enumeration k lines) (hline : declaration enumeration line = some (.attribute text)) :
    text ∈ k.attributes ↔ ∃ other ∈ lines, declaration enumeration other = declaration enumeration line := by
  rw [h.attributes, hline]

/-- A member is remembered unless it is known with another text. -/
theorem remember_ok (h : Holds enumeration k lines) (hline : declaration enumeration line = some (.member name))
    {added : Bool} (hk : remember label enumeration line.trim name k = .ok (k', added)) :
    (∀ other ∈ lines, declaration enumeration other = some (.member name) → other.trim = line.trim) ∧
      Holds enumeration k' (lines ++ [line]) ∧
        (added = false ↔ ∃ other ∈ lines, declaration enumeration other = declaration enumeration line) := by
  unfold remember at hk
  rw [hline]
  split at hk
  · rename_i previous hlookup
    obtain ⟨hsame, hk⟩ := check_bind_eq_ok.mp hk
    cases hk
    obtain rfl : previous = line.trim := prismaRequire_eq_ok.mp hsame
    obtain ⟨known, hknown, hmember, -⟩ := (h.members name line.trim).mp hlookup
    refine ⟨fun other hother hmember' => ?_, ⟨fun other text => ?_, fun text => ?_⟩, fun _ => ⟨known, hknown, hmember⟩, fun _ => rfl⟩
    · rw [(h.members name other.trim).mpr ⟨other, hother, hmember', rfl⟩] at hlookup
      exact Option.some.inj hlookup
    · rw [h.members]
      simp only [List.mem_append, List.mem_singleton, or_and_right, exists_or, exists_eq_left, hline]
      refine ⟨.inl, ?_⟩
      rintro (hin | ⟨hname, rfl⟩)
      · exact hin
      · cases hname
        exact (h.members name line.trim).mp hlookup
    · rw [h.attributes]
      simp [or_and_right, exists_or, hline]
  · rename_i hlookup
    cases hk
    have hnone : ∀ other ∈ lines, declaration enumeration other ≠ some (.member name) := by
      intro other hother hmember
      rw [(h.members name other.trim).mpr ⟨other, hother, hmember, rfl⟩] at hlookup
      cases hlookup
    refine ⟨fun other hother hmember => absurd hmember (hnone other hother), ⟨fun other text => ?_, fun text => ?_⟩, nofun,
      fun ⟨other, hother, hmember⟩ => absurd hmember (hnone other hother)⟩
    · dsimp only
      rw [List.lookup_append, Option.or_eq_some_iff, h.members]
      simp only [List.mem_append, List.mem_singleton, or_and_right, exists_or, exists_eq_left, hline]
      refine or_congr_right ?_
      constructor
      · rintro ⟨-, hsingle⟩
        rw [List.lookup_cons] at hsingle
        split at hsingle
        · rename_i hname
          rw [beq_iff_eq.mp hname]
          exact ⟨rfl, Option.some.inj hsingle⟩
        · cases hsingle
      · rintro ⟨hname, rfl⟩
        cases hname
        exact ⟨hlookup, by simp⟩
    · rw [h.attributes]
      simp [or_and_right, exists_or, hline]

theorem remember_of_agree (h : Holds enumeration k lines)
    (hagree : ∀ other ∈ lines, declaration enumeration other = some (.member name) → other.trim = line.trim) :
    ∃ result, remember label enumeration line.trim name k = .ok result := by
  unfold remember
  split
  · rename_i previous hlookup
    obtain ⟨other, hother, hmember, rfl⟩ := (h.members name previous).mp hlookup
    exact ⟨_, by rw [prismaRequire_of (hagree other hother hmember)]; rfl⟩
  · exact ⟨_, rfl⟩

/-! ## The existing lines -/

/-- A line can follow others: it is read, and its member is not known with another text. -/
structure Fits (enumeration : Bool) (lines : List Text) (line : Text) : Prop where
  supported : enumeration → IsSupported enumeration line
  agree : ∀ name, declaration enumeration line = some (.member name) →
    ∀ other ∈ lines, declaration enumeration other = some (.member name) → other.trim = line.trim

theorem readExistingLine_ok (h : Holds enumeration k lines) (hk : readExistingLine label enumeration k line = .ok k') :
    Fits enumeration lines line ∧ Holds enumeration k' (lines ++ [line]) := by
  unfold readExistingLine at hk
  dsimp only at hk
  split at hk
  · rename_i hsilent
    cases hk
    refine ⟨⟨fun _ => .inl hsilent, fun name hmember => ?_⟩, h.silent hsilent⟩
    exact absurd hsilent (declaration_member.mp hmember).1
  · rename_i hsilent
    split at hk
    · rename_i hattribute
      cases hk
      have hline := declaration_attribute.mpr ⟨hsilent, hattribute, rfl⟩
      refine ⟨⟨fun _ => .inr (by rw [hline]; rfl), fun name hmember => ?_⟩, h.addAttribute hline⟩
      rw [hline] at hmember
      cases hmember
    · rename_i hattribute
      split at hk
      · rename_i name hname
        obtain ⟨⟨k'', added⟩, hremember, hk⟩ := bind_eq_ok.mp hk
        cases hk
        have hline := declaration_member.mpr ⟨hsilent, Bool.eq_false_iff.mpr hattribute, hname⟩
        obtain ⟨hagree, hholds, -⟩ := remember_ok h hline hremember
        refine ⟨⟨fun _ => .inr (by rw [hline]; rfl), fun name' hmember => ?_⟩, hholds⟩
        rw [hline] at hmember
        cases hmember
        exact hagree
      · rename_i hname
        split at hk
        · cases hk
        · rename_i henum
          cases hk
          have hline := declaration_none hsilent hattribute hname
          refine ⟨⟨fun h => absurd h henum, fun name hmember => ?_⟩, h.unsupported hline⟩
          rw [hline] at hmember
          cases hmember

theorem readExistingLine_of_fits (h : Holds enumeration k lines) (hfits : Fits enumeration lines line) :
    ∃ k', readExistingLine label enumeration k line = .ok k' := by
  unfold readExistingLine
  dsimp only
  split
  · exact ⟨_, rfl⟩
  · rename_i hsilent
    split
    · exact ⟨_, rfl⟩
    · rename_i hattribute
      split
      · rename_i name hname
        have hline := declaration_member.mpr ⟨hsilent, Bool.eq_false_iff.mpr hattribute, hname⟩
        obtain ⟨result, hresult⟩ := remember_of_agree h (hfits.agree name hline)
        exact ⟨_, by rw [hresult]; rfl⟩
      · rename_i hname
        split
        · rename_i henum
          rcases hfits.supported henum with hsupported | hsupported
          · exact absurd hsupported hsilent
          · rw [declaration_none hsilent hattribute hname] at hsupported
            cases hsupported
        · exact ⟨_, rfl⟩

theorem readExisting_ok (h : Holds enumeration k known)
    (hk : lines.foldlM (readExistingLine label enumeration) k = .ok k') :
    (enumeration → ∀ line ∈ lines, IsSupported enumeration line) ∧ Holds enumeration k' (known ++ lines) := by
  induction lines generalizing k known with
  | nil =>
      cases hk
      exact ⟨fun _ => List.forall_mem_nil _, by rwa [List.append_nil]⟩
  | cons line lines ih =>
      rw [List.foldlM_cons] at hk
      obtain ⟨next, hnext, hk⟩ := bind_eq_ok.mp hk
      obtain ⟨hfits, hholds⟩ := readExistingLine_ok h hnext
      obtain ⟨hsupported, hk'⟩ := ih hholds hk
      rw [List.append_assoc] at hk'
      exact ⟨fun henum => List.forall_mem_cons.mpr ⟨hfits.supported henum, hsupported henum⟩, hk'⟩

theorem Agree.fits {others : List Text} (h : Agree enumeration (known ++ line :: others))
    (hsupported : enumeration → IsSupported enumeration line) : Fits enumeration known line :=
  ⟨hsupported, fun name hmember other hother hmember' =>
    h other (List.mem_append_left _ hother) line (List.mem_append_right _ List.mem_cons_self) name hmember' hmember⟩

theorem readExisting_of_agree (h : Holds enumeration k known) (hagree : Agree enumeration (known ++ lines))
    (hsupported : enumeration → ∀ line ∈ lines, IsSupported enumeration line) :
    ∃ k', lines.foldlM (readExistingLine label enumeration) k = .ok k' := by
  induction lines generalizing k known with
  | nil => exact ⟨k, rfl⟩
  | cons line lines ih =>
      obtain ⟨next, hnext⟩ := @readExistingLine_of_fits _ label _ _ _ h
        (hagree.fits fun henum => hsupported henum line List.mem_cons_self)
      obtain ⟨-, hholds⟩ := readExistingLine_ok h hnext
      obtain ⟨k', hk'⟩ := ih hholds (by rwa [List.append_assoc]) fun henum line hline =>
        hsupported henum line (List.mem_cons_of_mem _ hline)
      exact ⟨k', by rw [List.foldlM_cons, hnext, ok_bind, hk']⟩

/-! ## The lines of the template -/

theorem readTemplateMember_ok {added : Bool} (h : Holds enumeration k lines) (hsilent : ¬IsSilent line)
    (hk : readTemplateMember label enumeration k line.trim = .ok (k', added)) :
    IsSupported enumeration line ∧ Holds enumeration k' (lines ++ [line]) ∧
      (added = false ↔ ∃ other ∈ lines, declaration enumeration other = declaration enumeration line) := by
  unfold readTemplateMember at hk
  split at hk
  · rename_i hattribute
    cases hk
    have hline := declaration_attribute.mpr ⟨hsilent, hattribute, rfl⟩
    refine ⟨.inr (by rw [hline]; rfl), h.addAttribute hline, ?_⟩
    rw [decide_eq_false_iff_not, not_not, isNew_attribute h hline]
  · rename_i hattribute
    split at hk
    · rename_i name hname
      have hline := declaration_member.mpr ⟨hsilent, Bool.eq_false_iff.mpr hattribute, hname⟩
      obtain ⟨-, hholds, hadded⟩ := remember_ok h hline hk
      exact ⟨.inr (by rw [hline]; rfl), hholds, hadded⟩
    · cases hk

theorem readTemplateMember_of_fits (h : Holds enumeration k lines) (hsilent : ¬IsSilent line)
    (hsupported : IsSupported enumeration line) (hfits : Fits enumeration lines line) :
    ∃ result, readTemplateMember label enumeration k line.trim = .ok result := by
  unfold readTemplateMember
  split
  · exact ⟨_, rfl⟩
  · rename_i hattribute
    split
    · rename_i name hname
      exact remember_of_agree h (hfits.agree name (declaration_member.mpr ⟨hsilent, Bool.eq_false_iff.mpr hattribute, hname⟩))
    · rename_i hname
      have hdeclared := hsupported.resolve_left hsilent
      rw [declaration_none hsilent hattribute hname] at hdeclared
      cases hdeclared

/-- What is read of the template: its new lines, and that it is within the grammar. -/
theorem readTemplate_ok (h : Holds enumeration s.known known)
    (hs : lines.foldlM (readTemplateLine label enumeration) s = .ok s') :
    (∀ line ∈ lines, IsSupported enumeration line) ∧ Holds enumeration s'.known (known ++ lines) ∧
      s'.additions = s.additions ++ newLines enumeration known s.comments lines := by
  induction lines generalizing s known with
  | nil =>
      cases hs
      exact ⟨List.forall_mem_nil _, by rwa [List.append_nil], (List.append_nil _).symm⟩
  | cons line lines ih =>
      rw [List.foldlM_cons] at hs
      obtain ⟨next, hnext, hs⟩ := bind_eq_ok.mp hs
      unfold readTemplateLine at hnext
      dsimp only at hnext
      rw [newLines]
      split at hnext
      · rename_i hblank
        cases hnext
        obtain ⟨hsupported, hholds, hadditions⟩ := ih (h.silent (.inl hblank)) hs
        rw [List.append_assoc] at hholds
        exact ⟨List.forall_mem_cons.mpr ⟨.inl (.inl hblank), hsupported⟩, hholds, by rw [if_pos hblank, hadditions]⟩
      · rename_i hblank
        split at hnext
        · rename_i hcomment
          cases hnext
          obtain ⟨hsupported, hholds, hadditions⟩ := @ih (known ++ [line])
            ⟨s.known, s.additions, s.comments ++ [line]⟩ (h.silent (.inr hcomment)) hs
          rw [List.append_assoc] at hholds
          exact ⟨List.forall_mem_cons.mpr ⟨.inl (.inr hcomment), hsupported⟩, hholds,
            by rw [if_neg hblank, if_pos hcomment, hadditions]⟩
        · rename_i hcomment
          obtain ⟨⟨k', added⟩, hmember, hnext⟩ := bind_eq_ok.mp hnext
          cases hnext
          have hsilent : ¬IsSilent line := fun h => h.elim hblank hcomment
          obtain ⟨hsupported, hholds, hadded⟩ := readTemplateMember_ok h hsilent hmember
          obtain ⟨hsupported', hholds', hadditions⟩ := ih hholds hs
          rw [List.append_assoc] at hholds'
          refine ⟨List.forall_mem_cons.mpr ⟨hsupported, hsupported'⟩, hholds', ?_⟩
          rw [hadditions, if_neg hblank, if_neg hcomment]
          cases added with
          | true =>
              rw [if_neg fun h => absurd (hadded.mpr h) (by decide)]
              simp
          | false =>
              rw [if_pos (hadded.mp rfl)]
              simp

theorem readTemplate_of_agree (h : Holds enumeration s.known known)
    (hsupported : ∀ line ∈ lines, IsSupported enumeration line) (hagree : Agree enumeration (known ++ lines)) :
    ∃ s', lines.foldlM (readTemplateLine label enumeration) s = .ok s' := by
  induction lines generalizing s known with
  | nil => exact ⟨s, rfl⟩
  | cons line lines ih =>
      obtain ⟨hline, hlines⟩ := List.forall_mem_cons.mp hsupported
      have hagree' : Agree enumeration (known ++ [line] ++ lines) := by rwa [List.append_assoc]
      rw [List.foldlM_cons]
      by_cases hsilent : IsSilent line
      · have hread : ∃ comments, readTemplateLine label enumeration s line = .ok ⟨s.known, s.additions, comments⟩ := by
          unfold readTemplateLine
          dsimp only
          by_cases hblank : line.trim = []
          · exact ⟨s.comments, if_pos hblank⟩
          · exact ⟨_, by rw [if_neg hblank, if_pos (hsilent.resolve_left hblank)]⟩
        obtain ⟨comments, hread⟩ := hread
        rw [hread, ok_bind]
        exact ih (h.silent hsilent) hlines hagree'
      · obtain ⟨⟨k', added⟩, hmember⟩ := @readTemplateMember_of_fits _ label _ _ _ h hsilent hline (hagree.fits fun _ => hline)
        obtain ⟨-, hholds, -⟩ := readTemplateMember_ok h hsilent hmember
        have hread : ∃ next, readTemplateLine label enumeration s line = .ok next ∧ next.known = k' := by
          unfold readTemplateLine
          dsimp only
          rw [if_neg fun h => hsilent (.inl h), if_neg fun h => hsilent (.inr h), hmember]
          exact ⟨_, rfl, rfl⟩
        obtain ⟨next, hread, rfl⟩ := hread
        rw [hread, ok_bind]
        exact ih hholds hlines hagree'

/-! ## New lines -/

theorem mem_newLines (h : line ∈ newLines enumeration known comments lines) : line ∈ comments ∨ line ∈ lines := by
  induction lines generalizing known comments with
  | nil => cases h
  | cons first lines ih =>
      unfold newLines at h
      split at h
      · exact (ih h).imp_right (List.mem_cons_of_mem _)
      · split at h
        · rcases ih h with h | h
          · rcases List.mem_append.mp h with h | h
            · exact .inl h
            · exact .inr (List.mem_singleton.mp h ▸ List.mem_cons_self)
          · exact .inr (List.mem_cons_of_mem _ h)
        · split at h
          · rcases ih h with h | h
            · cases h
            · exact .inr (List.mem_cons_of_mem _ h)
          · rcases List.mem_append.mp h with h | h
            · exact .inl h
            · rcases List.mem_cons.mp h with rfl | h
              · exact .inr List.mem_cons_self
              · rcases ih h with h | h
                · cases h
                · exact .inr (List.mem_cons_of_mem _ h)

theorem declaration_of_isSilent (h : IsSilent line) : declaration enumeration line = none := if_pos h

/-- What the template declares is known, or one of the new lines declares it. -/
theorem declared_newLines {d : Declaration} (h : line ∈ lines) (hline : declaration enumeration line = some d) :
    ∃ other, (other ∈ known ∨ other ∈ newLines enumeration known comments lines) ∧
      declaration enumeration other = some d := by
  induction lines generalizing known comments with
  | nil => cases h
  | cons first lines ih =>
      -- what the rest of the template declares; the first line counts as known there
      have hrest : ∀ comments', line ∈ lines → ∃ other, (other ∈ known ∨ other = first ∨
          other ∈ newLines enumeration (known ++ [first]) comments' lines) ∧ declaration enumeration other = some d := by
        intro comments' hmem
        obtain ⟨other, hother, hsame⟩ := @ih (known ++ [first]) comments' hmem
        refine ⟨other, ?_, hsame⟩
        rcases hother with hother | hother
        · rcases List.mem_append.mp hother with hother | hother
          · exact .inl hother
          · exact .inr (.inl (List.mem_singleton.mp hother))
        · exact .inr (.inr hother)
      have hsilent : ∀ comments', IsSilent first → ∃ other, (other ∈ known ∨
          other ∈ newLines enumeration (known ++ [first]) comments' lines) ∧ declaration enumeration other = some d := by
        intro comments' hfirst
        have hnone := @declaration_of_isSilent enumeration _ hfirst
        rcases List.mem_cons.mp h with rfl | hmem
        · rw [hline] at hnone
          cases hnone
        · obtain ⟨other, hother, hsame⟩ := hrest comments' hmem
          refine ⟨other, hother.imp_right fun h => h.resolve_left ?_, hsame⟩
          rintro rfl
          rw [hnone] at hsame
          cases hsame
      unfold newLines
      split
      · rename_i hblank
        exact hsilent _ (.inl hblank)
      · split
        · rename_i hcomment
          exact hsilent _ (.inr hcomment)
        · split
          · rename_i hknown
            obtain ⟨old, hold, hsame⟩ := hknown
            rcases List.mem_cons.mp h with rfl | hmem
            · exact ⟨old, .inl hold, hsame.trans hline⟩
            · obtain ⟨other, hother | rfl | hother, hother'⟩ := hrest [] hmem
              · exact ⟨other, .inl hother, hother'⟩
              · exact ⟨old, .inl hold, hsame.trans hother'⟩
              · exact ⟨other, .inr hother, hother'⟩
          · rcases List.mem_cons.mp h with rfl | hmem
            · exact ⟨line, .inr (List.mem_append_right _ List.mem_cons_self), hline⟩
            · obtain ⟨other, hother | rfl | hother, hother'⟩ := hrest [] hmem
              · exact ⟨other, .inl hother, hother'⟩
              · exact ⟨other, .inr (List.mem_append_right _ List.mem_cons_self), hother'⟩
              · exact ⟨other, .inr (List.mem_append_right _ (List.mem_cons_of_mem _ hother)), hother'⟩

/-- There are no new lines where everything is declared already. -/
theorem newLines_eq_nil (h : ∀ line ∈ lines, ¬IsSilent line →
    ∃ other ∈ known, declaration enumeration other = declaration enumeration line) :
    newLines enumeration known comments lines = [] := by
  induction lines generalizing known comments with
  | nil => rfl
  | cons first lines ih =>
      have hrest : ∀ line ∈ lines, ¬IsSilent line →
          ∃ other ∈ known ++ [first], declaration enumeration other = declaration enumeration line := by
        intro line hmem hline
        obtain ⟨other, hother, hsame⟩ := h line (List.mem_cons_of_mem _ hmem) hline
        exact ⟨other, List.mem_append_left _ hother, hsame⟩
      unfold newLines
      split
      · exact ih hrest
      · rename_i hblank
        split
        · exact ih hrest
        · rename_i hcomment
          rw [if_pos (h first List.mem_cons_self fun h => h.elim hblank hcomment), ih hrest]

/-! ## Whole bodies -/

theorem mem_withoutEmptyEdges (h : line ∈ withoutEmptyEdges lines) : line ∈ lines := by
  unfold withoutEmptyEdges at h
  have h := (List.dropWhile_sublist _).subset (List.mem_reverse.mp h)
  exact (List.dropWhile_sublist _).subset (List.mem_reverse.mp h)

/-- Only empty lines are dropped at the edges. -/
theorem mem_withoutEmptyEdges_of_not (h : line ∈ lines) (hline : line.trim ≠ []) : line ∈ withoutEmptyEdges lines := by
  have hdrop : ∀ lines : List Text, line ∈ lines → line ∈ lines.dropWhile (·.trim = []) := by
    intro lines h
    rw [← List.takeWhile_append_dropWhile (p := fun line : Text => decide (line.trim = [])) (l := lines)] at h
    rcases List.mem_append.mp h with h | h
    · have hblank := List.all_eq_true.mp
        (List.all_takeWhile (p := fun line : Text => decide (line.trim = [])) (l := lines)) line h
      exact absurd (of_decide_eq_true hblank) hline
    · exact h
  exact List.mem_reverse.mpr (hdrop _ (List.mem_reverse.mpr (hdrop _ h)))

/-- The text between the braces of a block to which lines have been added. -/
def mergedBody (enumeration : Bool) (existing template : List Text) : Text :=
  [lineFeed] ++ (Text.joinWith [lineFeed] (withoutEmptyEdges existing ++ newLines enumeration existing [] template) ++
    [lineFeed])

variable {type header body tail content type' name' header' body' tail' content' out : Text}

/-- Two bodies are merged exactly if they go together. -/
theorem mergeMemberLines_ok (hexisting : IsBlock type name header body tail content)
    (htemplate : IsBlock type' name' header' body' tail' content') :
    mergeMemberLines content content' label enumeration = .ok out ↔
      Mergeable enumeration (Text.splitAt lineFeed body) (Text.splitAt lineFeed body') ∧
        out = if newLines enumeration (Text.splitAt lineFeed body) [] (Text.splitAt lineFeed body') = [] then content
          else header ++ (mergedBody enumeration (Text.splitAt lineFeed body) (Text.splitAt lineFeed body') ++
            unit '\x7d' :: tail) := by
  have hresult : ∀ additions : List Text, additions = newLines enumeration (Text.splitAt lineFeed body) []
      (Text.splitAt lineFeed body') → (if additions = [] then (.ok content : Except CodedFailure Text)
        else do
          let bounds ← bodyBounds content
          return Text.cat [content.take (bounds.1 + 1), [lineFeed], Text.joinWith [lineFeed]
            (withoutEmptyEdges (Text.splitAt lineFeed body) ++ additions), [lineFeed], content.drop bounds.2]) =
      .ok (if newLines enumeration (Text.splitAt lineFeed body) [] (Text.splitAt lineFeed body') = [] then content
          else header ++ (mergedBody enumeration (Text.splitAt lineFeed body) (Text.splitAt lineFeed body') ++
            unit '\x7d' :: tail)) := by
    rintro additions rfl
    split
    · rfl
    · rw [hexisting.bodyBounds, ok_bind]
      dsimp only
      rw [hexisting.take_opening, hexisting.drop_closing, mergedBody]
      simp [Text.cat]
  unfold mergeMemberLines
  constructor
  · intro h
    obtain ⟨existing, hlines, h⟩ := bind_eq_ok.mp h
    obtain rfl := Except.ok.inj (hexisting.bodyLines.symm.trans hlines)
    obtain ⟨known, hknown, h⟩ := bind_eq_ok.mp h
    obtain ⟨template, hlines', h⟩ := bind_eq_ok.mp h
    obtain rfl := Except.ok.inj (htemplate.bodyLines.symm.trans hlines')
    obtain ⟨read, hread, h⟩ := bind_eq_ok.mp h
    obtain ⟨hsupported, hholds⟩ := readExisting_ok (holds_nil enumeration) hknown
    obtain ⟨hsupported', hholds', hadditions⟩ := readTemplate_ok (s := ⟨known, [], []⟩) hholds hread
    exact ⟨⟨hsupported, hsupported', hholds'.agree⟩, Except.ok.inj (h.symm.trans (hresult read.additions hadditions))⟩
  · rintro ⟨⟨hsupported, hsupported', hagree⟩, rfl⟩
    have hagree' : Agree enumeration ([] ++ Text.splitAt lineFeed body) := by
      intro line hline other hother
      exact hagree line (List.mem_append_left _ hline) other (List.mem_append_left _ hother)
    obtain ⟨known, hknown⟩ := @readExisting_of_agree _ label _ _ _ (holds_nil enumeration) hagree' hsupported
    obtain ⟨-, hholds⟩ := readExisting_ok (holds_nil enumeration) hknown
    obtain ⟨read, hread⟩ := @readTemplate_of_agree _ label _ _ ⟨known, [], []⟩ hholds hsupported' hagree
    obtain ⟨-, -, hadditions⟩ := readTemplate_ok (s := ⟨known, [], []⟩) hholds hread
    rw [hexisting.bodyLines, ok_bind, hknown, ok_bind, htemplate.bodyLines, ok_bind, hread, ok_bind]
    exact hresult read.additions hadditions

/-! ## Merged bodies -/

theorem IsBody.nested (h : IsBody body) : Nested 1 (Text.splitAt lineFeed body) 1 := by
  obtain ⟨hlines, hinit, hlast⟩ := h
  rw [hlines]
  exact hinit.append (.cons hlast.lone Nat.zero_lt_one (.nil 1))

/-- Empty lines at the edges do not matter to the scan. -/
theorem nested_withoutEmptyEdges {d d' : Nat} (h : Nested d lines d') :
    Nested d (withoutEmptyEdges lines) d' := by
  have hspace : ∀ lines : List Text, ∀ line ∈ lines.takeWhile fun line => decide (line.trim = []), Text.IsSpace line := by
    intro lines line h
    exact Text.trim_eq_nil.mp (of_decide_eq_true (List.all_eq_true.mp
      (List.all_takeWhile (p := fun line : Text => decide (line.trim = [])) (l := lines)) line h))
  have hsplit : ∀ lines : List Text, (lines.takeWhile fun line => decide (line.trim = [])) ++
      (lines.dropWhile fun line => decide (line.trim = [])) = lines := fun _ => List.takeWhile_append_dropWhile
  unfold withoutEmptyEdges
  -- the first lines
  rw [← hsplit lines] at h
  obtain ⟨d₁, hfirst, h⟩ := nested_append.mp h
  rw [nested_space_iff (hspace lines) hfirst] at h
  generalize lines.dropWhile (fun line => decide (line.trim = [])) = rest at h ⊢
  -- the last lines
  have hreverse := congrArg List.reverse (hsplit rest.reverse)
  rw [List.reverse_append, List.reverse_reverse] at hreverse
  rw [← hreverse] at h
  obtain ⟨d₂, h, hlast⟩ := nested_append.mp h
  rwa [nested_space_iff (fun line hline => hspace _ line (List.mem_reverse.mp hline)) hlast]

theorem splitAt_mergedBody (hexisting : ∀ line ∈ existing, lineFeed ∉ line) (htemplate : ∀ line ∈ template, lineFeed ∉ line)
    (hne : newLines enumeration existing [] template ≠ []) : Text.splitAt lineFeed (mergedBody enumeration existing template) =
      [] :: (withoutEmptyEdges existing ++ newLines enumeration existing [] template) ++ [[]] := by
  have hlines : ∀ line ∈ withoutEmptyEdges existing ++ newLines enumeration existing [] template, lineFeed ∉ line := by
    intro line hline
    rcases List.mem_append.mp hline with hline | hline
    · exact hexisting line (mem_withoutEmptyEdges hline)
    · exact htemplate line ((mem_newLines hline).resolve_left List.not_mem_nil)
  unfold mergedBody
  rw [List.singleton_append, ← List.nil_append (lineFeed :: _), Text.splitAt_append_cons, Text.splitAt_append_cons,
    Text.splitAt_joinWith (List.append_ne_nil_of_right_ne_nil _ hne) hlines]
  rfl

theorem isBody_mergedBody (hbody : IsBody body) (htemplate : ∀ line ∈ template, lineFeed ∉ line)
    (hne : newLines enumeration (Text.splitAt lineFeed body) [] template ≠ [])
    (hnested : Nested 1 (newLines enumeration (Text.splitAt lineFeed body) [] template) 1) :
    IsBody (mergedBody enumeration (Text.splitAt lineFeed body) template) := by
  refine .mk (splitAt_mergedBody (fun _ h => Text.notMem_of_mem_splitAt h) htemplate hne) (d := 1) ?_ (through_nil _)
  refine .cons (scanPrismaLine_space Text.IsSpace.nil 1) Nat.zero_lt_one ?_
  exact (nested_withoutEmptyEdges hbody.nested).append hnested

/-! ## Merging again -/

/-- The lines of a body to which the new lines have been added. -/
theorem mergeable_again (h : Mergeable enumeration existing template) :
    Mergeable enumeration ([] :: (withoutEmptyEdges existing ++ newLines enumeration existing [] template) ++ [[]]) template ∧
      newLines enumeration ([] :: (withoutEmptyEdges existing ++ newLines enumeration existing [] template) ++ [[]]) []
        template = [] := by
  have hsilent : IsSilent [] := .inl rfl
  have hmem : ∀ line ∈ [] :: (withoutEmptyEdges existing ++ newLines enumeration existing [] template) ++ [[]],
      (line ∈ existing ∨ line ∈ template) ∨ IsSilent line := by
    intro line hline
    rcases List.mem_append.mp hline with hline | hline
    · rcases List.mem_cons.mp hline with rfl | hline
      · exact .inr hsilent
      · rcases List.mem_append.mp hline with hline | hline
        · exact .inl (.inl (mem_withoutEmptyEdges hline))
        · exact .inl (.inr ((mem_newLines hline).resolve_left List.not_mem_nil))
    · exact .inr (List.mem_singleton.mp hline ▸ hsilent)
  refine ⟨⟨fun henum line hline => ?_, h.template_supported, h.agree.mono fun line hline => ?_⟩, newLines_eq_nil ?_⟩
  · rcases hmem line hline with (hline | hline) | hline
    · exact h.existing_supported henum line hline
    · exact h.template_supported line hline
    · exact .inl hline
  · rcases List.mem_append.mp hline with hline | hline
    · exact (hmem line hline).imp_left List.mem_append.mpr
    · exact .inl (List.mem_append_right _ hline)
  · intro line hline hnot
    obtain ⟨d, hd⟩ := Option.isSome_iff_exists.mp ((h.template_supported line hline).resolve_left hnot)
    obtain ⟨other, hother, hsame⟩ := @declared_newLines _ _ _ existing [] d hline hd
    refine ⟨other, List.mem_append_left _ (List.mem_cons_of_mem _ (List.mem_append.mpr ?_)), hsame.trans hd.symm⟩
    refine hother.imp_left fun hother => mem_withoutEmptyEdges_of_not hother fun hblank => ?_
    rw [declaration_of_isSilent (.inl hblank)] at hsame
    cases hsame

/-- A body goes together with itself if it is within the grammar, and then there is nothing new. -/
theorem mergeable_self : Mergeable enumeration lines lines ↔ (∀ line ∈ lines, IsSupported enumeration line) ∧
    Agree enumeration lines := by
  constructor
  · intro h
    exact ⟨h.template_supported, h.agree.mono fun line hline => .inl (List.mem_append_left _ hline)⟩
  · rintro ⟨hsupported, hagree⟩
    refine ⟨fun _ => hsupported, hsupported, hagree.mono fun line hline => .inl ?_⟩
    rcases List.mem_append.mp hline with hline | hline
    · exact hline
    · exact hline

theorem newLines_self : newLines enumeration lines [] lines = [] :=
  newLines_eq_nil fun line hline _ => ⟨line, hline, rfl⟩

end SecPlatform.Compiler.Templates
