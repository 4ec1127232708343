import Mathlib.Data.List.Induction
import SecPlatform.Compiler.Templates.Lemmas.PrismaDocument
import SecPlatform.Compiler.Templates.Lemmas.PrismaMembers
import SecPlatform.Library.Related

/-!
# Merging documents

What the loop over the template's blocks makes of the existing ones, and that the text of the merge is read back to it.
-/

namespace SecPlatform.Compiler.Templates

open Contracts

variable {blocks template merged added M A T : List PrismaBlock} {b tb b' m : PrismaBlock} {content : Text}

/-! ## The loop over the template -/

/-- What becomes of an existing block. -/
def MergedBy (template : List PrismaBlock) (block merged : PrismaBlock) : Prop :=
  match template.find? (·.key = block.key) with
  | none => merged = block
  | some templateBlock => mergeBlock block templateBlock = .ok merged

/-- A merge only touches the content of a block. -/
theorem mergeBlock_frame (h : mergeBlock b tb = .ok m) : m = { b with content := m.content } := by
  unfold mergeBlock at h
  dsimp only at h
  split at h
  · obtain ⟨content, -, h⟩ := bind_eq_ok.mp h
    cases h
    rfl
  · split at h
    · obtain ⟨content, -, h⟩ := bind_eq_ok.mp h
      cases h
      rfl
    · obtain ⟨-, h⟩ := check_bind_eq_ok.mp h
      cases h
      rfl

theorem mergeBlock_key (h : mergeBlock b tb = .ok m) : m.key = b.key := by
  rw [mergeBlock_frame h]
  rfl

theorem MergedBy.frame (h : MergedBy T b m) : m = { b with content := m.content } := by
  unfold MergedBy at h
  split at h
  · rw [h]
  · exact mergeBlock_frame h

theorem MergedBy.key (h : MergedBy T b m) : m.key = b.key := by
  rw [h.frame]
  rfl

theorem find?_key_of_mem (hnodup : (M.map PrismaBlock.key).Nodup) (hb : b ∈ M) :
    M.find? (·.key = b.key) = some b := by
  induction M with
  | nil => cases hb
  | cons first M ih =>
      rw [List.map_cons, List.nodup_cons] at hnodup
      rcases List.mem_cons.mp hb with rfl | hb
      · exact List.find?_cons_of_pos (by simp)
      · rw [List.find?_cons_of_neg, ih hnodup.2 hb]
        simp only [decide_eq_true_eq]
        intro h
        exact hnodup.1 (h ▸ List.mem_map_of_mem hb)

theorem replaceBlock_of_notMem (h : ∀ b ∈ M, b.key ≠ m.key) : replaceBlock m M = M := by
  unfold replaceBlock
  rw [List.map_congr_left (g := id)]
  · exact List.map_id _
  · intro b hb
    exact if_neg (h b hb)

theorem mergedBy_cons_of_ne (h : b.key ≠ tb.key) : MergedBy (tb :: T) b m ↔ MergedBy T b m := by
  unfold MergedBy
  rw [List.find?_cons_of_neg]
  simpa using Ne.symm h

theorem mergedBy_of_notMem (h : ∀ tb ∈ T, tb.key ≠ b.key) : MergedBy T b m ↔ m = b := by
  unfold MergedBy
  rw [List.find?_eq_none.mpr (by simpa using h)]

/-- Each existing block is merged with the block of the template under its key; the other ones are added. -/
theorem foldlM_mergeTemplateBlock {result : SchemaMerge} (hM : (M.map PrismaBlock.key).Nodup)
    (hT : (T.map PrismaBlock.key).Nodup) (hA : ∀ a ∈ A, ∀ tb ∈ T, a.key ≠ tb.key) :
    T.foldlM mergeTemplateBlock ⟨M, A⟩ = .ok result ↔
      result.addedBlocks = A ++ T.filter (fun tb => tb.key ∉ M.map PrismaBlock.key) ∧
        List.Forall₂ (MergedBy T) M result.mergedList := by
  induction T generalizing M A with
  | nil =>
      have hsame : List.Forall₂ (MergedBy []) M result.mergedList ↔ result.mergedList = M := by
        have heq : ∀ x ∈ M, ∀ y, MergedBy [] x y ↔ x = y := fun x _ y => eq_comm
        rw [forall₂_congr_mem heq, List.forall₂_eq_eq_eq, eq_comm]
      rw [hsame, List.filter_nil, List.append_nil, List.foldlM_nil]
      obtain ⟨mergedList, addedBlocks⟩ := result
      constructor
      · intro h
        cases h
        exact ⟨rfl, rfl⟩
      · rintro ⟨rfl, rfl⟩
        rfl
  | cons tb T ih =>
      rw [List.map_cons, List.nodup_cons] at hT
      have hnew : ∀ other ∈ T, other.key ≠ tb.key := fun other h heq => hT.1 (heq ▸ List.mem_map_of_mem h)
      have hAfind : A.find? (·.key = tb.key) = none :=
        List.find?_eq_none.mpr (by simpa using fun a ha => hA a ha tb List.mem_cons_self)
      rw [List.foldlM_cons]
      cases hfind : M.find? (·.key = tb.key) with
      | none =>
          have hnone : ∀ b ∈ M, b.key ≠ tb.key := by simpa using List.find?_eq_none.mp hfind
          have hstep : mergeTemplateBlock ⟨M, A⟩ tb = .ok ⟨M, A ++ [tb]⟩ := by
            unfold mergeTemplateBlock
            dsimp only
            rw [List.find?_append, hAfind, hfind]
            rfl
          have hkey : tb.key ∉ M.map PrismaBlock.key := by
            rw [List.mem_map]
            rintro ⟨b, hb, hkey⟩
            exact hnone b hb hkey
          rw [hstep, ok_bind, ih hM hT.2, List.filter_cons_of_pos (by simpa using hkey), List.append_assoc,
            List.singleton_append, forall₂_congr_mem fun b hb m => (@mergedBy_cons_of_ne T b tb m (hnone b hb)).symm]
          intro a ha other hother
          rcases List.mem_append.mp ha with ha | ha
          · exact hA a ha other (List.mem_cons_of_mem _ hother)
          · rw [List.mem_singleton.mp ha]
            exact (hnew other hother).symm
      | some b =>
          have hb := List.mem_of_find?_eq_some hfind
          have hkey : b.key = tb.key := by simpa using List.find?_some hfind
          have hfilter : (tb :: T).filter (fun tb => tb.key ∉ M.map PrismaBlock.key) =
              T.filter (fun tb => tb.key ∉ M.map PrismaBlock.key) := by
            refine List.filter_cons_of_neg ?_
            simp only [decide_eq_true_eq, not_not, ← hkey]
            exact List.mem_map_of_mem hb
          have hfirst : ∀ m, MergedBy (tb :: T) b m ↔ mergeBlock b tb = .ok m := by
            intro m
            unfold MergedBy
            rw [List.find?_cons_of_pos (by simp [hkey])]
          have hstep : mergeTemplateBlock ⟨M, A⟩ tb = mergeBlock b tb >>= fun m =>
              .ok ⟨replaceBlock m M, replaceBlock m A⟩ := by
            unfold mergeTemplateBlock
            dsimp only
            rw [List.find?_append, hfind]
            rfl
          rw [hfilter, hstep]
          cases hmerge : mergeBlock b tb with
          | error e =>
              refine ⟨nofun, ?_⟩
              rintro ⟨-, hall⟩
              obtain ⟨m, -, hm⟩ := forall₂_exists_right hall hb
              rw [hfirst, hmerge] at hm
              cases hm
          | ok m =>
              have hmkey := (mergeBlock_key hmerge).trans hkey
              have hA' : replaceBlock m A = A :=
                replaceBlock_of_notMem fun a ha => hmkey ▸ hA a ha tb List.mem_cons_self
              have hkeys : (replaceBlock m M).map PrismaBlock.key = M.map PrismaBlock.key := by
                unfold replaceBlock
                rw [List.map_map]
                refine List.map_congr_left fun other hother => ?_
                dsimp only [Function.comp_apply]
                split
                · rename_i heq
                  exact heq.symm
                · rfl
              rw [ok_bind, ok_bind, hA', ih (by rwa [hkeys]) hT.2, hkeys]
              · refine and_congr_right fun _ => ?_
                unfold replaceBlock
                rw [List.forall₂_map_left_iff]
                refine forall₂_congr_mem fun other hother merged => ?_
                by_cases hother' : other.key = m.key
                · have heq : other = b := by
                    have hfound := find?_key_of_mem hM hother
                    rw [hother', hmkey, hfind] at hfound
                    exact (Option.some.inj hfound).symm
                  rw [if_pos hother', heq, hfirst, hmerge, mergedBy_of_notMem fun tb' htb' => hmkey ▸ hnew tb' htb',
                    Except.ok.injEq, eq_comm]
                · rw [if_neg hother', mergedBy_cons_of_ne (hmkey ▸ hother')]
              · exact fun a ha other hother => hA a ha other (List.mem_cons_of_mem _ hother)

/-! ## Single blocks -/

variable {enumeration : Bool} {header body tail header' body' tail' : Text}

theorem mergeBlock_members (hgrammar : memberGrammar tb.type = some enumeration) : mergeBlock b tb = .ok m ↔
    mergeMemberLines b.content tb.content tb.key enumeration = .ok m.content ∧ m = { b with content := m.content } := by
  have hmerge : mergeBlock b tb = mergeMemberLines b.content tb.content tb.key enumeration >>= fun content =>
      .ok { b with content := content } := by
    unfold memberGrammar at hgrammar
    unfold mergeBlock
    dsimp only
    split at hgrammar
    · rename_i htype
      cases hgrammar
      rw [if_pos htype]
      rfl
    · rename_i htype
      split at hgrammar
      · rename_i henum
        cases hgrammar
        rw [if_neg htype, if_pos henum]
        rfl
      · cases hgrammar
  rw [hmerge, bind_eq_ok]
  constructor
  · rintro ⟨content, hcontent, h⟩
    cases h
    exact ⟨hcontent, rfl⟩
  · rintro ⟨hcontent, hm⟩
    exact ⟨m.content, hcontent, by rw [← hm]⟩

theorem mergeBlock_settings (hgrammar : memberGrammar tb.type = none) : mergeBlock b tb = .ok m ↔
    normalizedBlock b.content = normalizedBlock tb.content ∧ m = b := by
  unfold memberGrammar at hgrammar
  unfold mergeBlock
  dsimp only
  split at hgrammar
  · cases hgrammar
  · rename_i htype
    split at hgrammar
    · cases hgrammar
    · rename_i henum
      rw [if_neg htype, if_neg henum, check_bind_eq_ok, prismaRequire_eq_ok]
      refine and_congr_right fun _ => ?_
      constructor
      · intro h
        cases h
        rfl
      · rintro rfl
        rfl

/-! ## Carriage returns -/

theorem return_notMem_normalizedLines (content : Text) : carriageReturn ∉ normalizedLines content := by
  unfold normalizedLines
  rw [List.mem_map]
  rintro ⟨c, -, hc⟩
  split at hc
  · exact absurd hc (by decide)
  · rename_i hne
    exact hne hc

theorem normalizedLines_of_notMem (h : carriageReturn ∉ content) : normalizedLines content = content := by
  have hmap : ∀ s : Text, carriageReturn ∉ s → s.map (fun c => if c = carriageReturn then lineFeed else c) = s := by
    intro s hs
    rw [List.map_congr_left (g := id)]
    · exact List.map_id _
    · intro c hc
      have hne : c ≠ carriageReturn := by
        rintro rfl
        exact hs hc
      exact if_neg hne
  have hreplace : replaceCrLf content = content := by
    fun_induction replaceCrLf content with
    | case1 => rfl
    | case2 => rfl
    | case3 c d rest hcrlf => exact absurd (hcrlf.1 ▸ List.mem_cons_self) h
    | case4 c d rest hcrlf ih => rw [ih fun hmem => h (List.mem_cons_of_mem _ hmem)]
  rw [normalizedLines, hreplace, hmap content h]

theorem mem_mergeMemberLines {label out : Text} {c : CodeUnit} {type name type' name' content' : Text}
    (hexisting : IsBlock type name header body tail content)
    (htemplate : IsBlock type' name' header' body' tail' content')
    (h : mergeMemberLines content content' label enumeration = .ok out) (hc : c ∈ out) :
    c ∈ content ∨ c ∈ content' ∨ c = lineFeed := by
  obtain ⟨-, rfl⟩ := (mergeMemberLines_ok hexisting htemplate).mp h
  split at hc
  · exact .inl hc
  · have hcontent : ∀ c, c ∈ header ∨ c ∈ body ∨ c ∈ unit '\x7d' :: tail → c ∈ content := by
      intro c hc
      rw [hexisting.content_eq, List.mem_append, List.mem_append]
      exact hc
    rw [mergedBody, List.mem_append, List.mem_append, List.mem_append, List.mem_append, List.mem_singleton] at hc
    rcases hc with hc | ((hc | hc | hc) | hc)
    · exact .inl (hcontent c (.inl hc))
    · exact .inr (.inr hc)
    · rcases Text.mem_joinWith hc with hc | ⟨line, hline, hc⟩
      · exact .inr (.inr (List.mem_singleton.mp hc))
      · rcases List.mem_append.mp hline with hline | hline
        · exact .inl (hcontent c (.inr (.inl (Text.mem_of_mem_splitAt (mem_withoutEmptyEdges hline) hc))))
        · have hmem := Text.mem_of_mem_splitAt ((mem_newLines hline).resolve_left List.not_mem_nil) hc
          refine .inr (.inl ?_)
          rw [htemplate.content_eq]
          exact List.mem_append_right _ (List.mem_append_left _ hmem)
    · exact .inr (.inr hc)
    · exact .inl (hcontent c (.inr (.inr hc)))

theorem mem_renderMerge {s : SchemaMerge} {trailing : Text} {c : CodeUnit} (h : c ∈ renderMerge s trailing) :
    (∃ block ∈ s.mergedList ++ s.addedBlocks, c ∈ block.text) ∨ c ∈ trailing ∨ c = lineFeed := by
  have houtput : c ∈ (s.mergedList.map PrismaBlock.text).flatten ++ trailing →
      (∃ block ∈ s.mergedList ++ s.addedBlocks, c ∈ block.text) ∨ c ∈ trailing ∨ c = lineFeed := by
    intro h
    rcases List.mem_append.mp h with h | h
    · obtain ⟨text, htext, hc⟩ := List.mem_flatten.mp h
      obtain ⟨block, hblock, rfl⟩ := List.mem_map.mp htext
      exact .inl ⟨block, List.mem_append_left _ hblock, hc⟩
    · exact .inr (.inl h)
  unfold renderMerge at h
  dsimp only at h
  split at h
  · exact houtput h
  · rcases List.mem_append.mp h with h | h
    · rcases Text.mem_joinWith h with h | ⟨piece, hpiece, hc⟩
      · exact .inr (.inr (by simpa using h))
      · rcases List.mem_append.mp hpiece with hpiece | hpiece
        · split at hpiece
          · cases hpiece
          · rw [List.mem_singleton.mp hpiece] at hc
            exact houtput (Text.mem_of_mem_trimEnd hc)
        · obtain ⟨block, hblock, rfl⟩ := List.mem_map.mp hpiece
          exact .inl ⟨block, List.mem_append_right _ hblock, Text.mem_of_mem_trimStart (Text.mem_of_mem_trimEnd hc)⟩
    · exact .inr (.inr (List.mem_singleton.mp h))

/-! ## Texts of blocks without the white space around them -/

/-- The lines of a text, trimmed, without the empty ones. -/
def lineTexts (s : Text) : List Text := ((Text.splitAt lineFeed s).map Text.trim).filter (· ≠ [])

theorem normalizedBlock_eq (h : carriageReturn ∉ content) :
    normalizedBlock content = Text.joinWith [lineFeed] (lineTexts content) := by
  rw [normalizedBlock, normalizedLines_of_notMem h]
  rfl

theorem lineTexts_append_left {s t : Text} (hs : Text.IsSpace s) : lineTexts (s ++ t) = lineTexts t := by
  induction s with
  | nil => rfl
  | cons c s ih =>
      obtain ⟨hc, hs⟩ := List.forall_mem_cons.mp hs
      rw [← ih hs]
      obtain ⟨line, lines, hlines⟩ := List.exists_cons_of_ne_nil (Text.splitAt_ne_nil lineFeed (s ++ t))
      unfold lineTexts
      by_cases hfeed : c = lineFeed
      · rw [hfeed, List.cons_append, Text.splitAt, if_pos rfl, List.map_cons, List.filter_cons_of_neg]
        rw [Text.trim_of_isSpace Text.IsSpace.nil]
        simp
      · have hspace : Text.IsSpace [c] := by
          intro d hd
          rwa [List.mem_singleton.mp hd]
        rw [List.cons_append, Text.splitAt, if_neg hfeed, hlines]
        dsimp only
        have htrim : Text.trim (c :: line) = Text.trim line := Text.trim_append_left hspace line
        rw [List.map_cons, List.map_cons, htrim]

theorem lineTexts_append_right {s t : Text} (ht : Text.IsSpace t) : lineTexts (s ++ t) = lineTexts s := by
  induction t using List.reverseRecOn with
  | nil => rw [List.append_nil]
  | append_singleton t c ih =>
      obtain ⟨ht, hc⟩ := List.forall_mem_append.mp ht
      rw [← ih ht, ← List.append_assoc]
      have hlines := List.dropLast_append_getLast (Text.splitAt_ne_nil lineFeed (s ++ t))
      generalize (Text.splitAt lineFeed (s ++ t)).dropLast = init at hlines
      generalize (Text.splitAt lineFeed (s ++ t)).getLast _ = line at hlines
      unfold lineTexts
      by_cases hfeed : c = lineFeed
      · rw [hfeed, Text.splitAt_append_cons, List.map_append, List.filter_append]
        simp [Text.splitAt, Text.trim_of_isSpace Text.IsSpace.nil]
      · have hnot : lineFeed ∉ [c] := by
          rw [List.mem_singleton]
          exact Ne.symm hfeed
        rw [Text.splitAt_append_of_notMem_right hnot hlines.symm, ← hlines, List.map_append, List.map_append, List.map_singleton,
          List.map_singleton, Text.trim_append_right hc]

/-- Blocks that differ in the white space around them have one normalized text. -/
theorem normalizedBlock_congr {content' : Text} (h : carriageReturn ∉ content) (h' : carriageReturn ∉ content')
    (htrim : content.trim = content'.trim) : normalizedBlock content = normalizedBlock content' := by
  have hlines : ∀ s : Text, lineTexts s = lineTexts s.trim := by
    intro s
    obtain ⟨before, behind, hbefore, hbehind, hs⟩ := Text.exists_trim s
    conv_lhs => rw [hs, lineTexts_append_left hbefore, lineTexts_append_right hbehind]
  rw [normalizedBlock_eq h, normalizedBlock_eq h', hlines, htrim, ← hlines]

/-! ## Whole schemas -/

variable {existingContent templateContent merge : Text} {document existing template' : PrismaDocument}

theorem mergePrismaSchemas_ok : mergePrismaSchemas existingContent templateContent = .ok merge ↔
    ∃ existing template merged, parsePrismaDocument existingContent = .ok existing ∧
      parsePrismaDocument templateContent = .ok template ∧
        List.Forall₂ (MergedBy template.blocks) existing.blocks merged ∧
          merge = renderMerge ⟨merged, newBlocks existing.blocks template.blocks⟩ existing.trailing := by
  unfold mergePrismaSchemas
  constructor
  · intro h
    obtain ⟨existing, hexisting, h⟩ := bind_eq_ok.mp h
    obtain ⟨template, htemplate, h⟩ := bind_eq_ok.mp h
    obtain ⟨⟨merged, added⟩, hfold, h⟩ := bind_eq_ok.mp h
    cases h
    obtain ⟨hadded, hmerged⟩ := (foldlM_mergeTemplateBlock (parsePrismaDocument_ok.mp hexisting).2
      (parsePrismaDocument_ok.mp htemplate).2 (List.forall_mem_nil _)).mp hfold
    exact ⟨existing, template, merged, hexisting, htemplate, hmerged, by rw [show added = _ from hadded]; rfl⟩
  · rintro ⟨existing, template, merged, hexisting, htemplate, hmerged, rfl⟩
    rw [hexisting, ok_bind, htemplate, ok_bind, (foldlM_mergeTemplateBlock (parsePrismaDocument_ok.mp hexisting).2
      (parsePrismaDocument_ok.mp htemplate).2 (List.forall_mem_nil _)).mpr
        (show SchemaMerge.addedBlocks ⟨merged, newBlocks existing.blocks template.blocks⟩ = _ ∧ _ from ⟨rfl, hmerged⟩)]
    rfl

/-- The text of a document has no carriage returns. -/
theorem return_notMem_document (h : parsePrismaDocument content = .ok document) :
    (∀ block ∈ document.blocks, carriageReturn ∉ block.text) ∧ carriageReturn ∉ document.trailing := by
  have htext := (parsePrismaDocument_ok.mp h).1.text
  rw [List.nil_append, following_nil, Text.joinWith_splitAt] at htext
  have hnot := htext ▸ return_notMem_normalizedLines content
  rw [List.mem_append, not_or] at hnot
  refine ⟨fun block hblock hmem => hnot.1 ?_, hnot.2⟩
  exact List.mem_flatten.mpr ⟨_, List.mem_map_of_mem hblock, hmem⟩

theorem linesAdded_eq {type name type' name' : Text} (hfind : T.find? (·.key = b.key) = some tb)
    (hgrammar : memberGrammar tb.type = some enumeration) (hblock : IsBlock type name header body tail b.content)
    (htemplate : IsBlock type' name' header' body' tail' tb.content) :
    linesAdded T b = newLines enumeration (Text.splitAt lineFeed body) [] (Text.splitAt lineFeed body') := by
  rw [linesAdded, hfind]
  dsimp only
  rw [hgrammar, hblock.bodyLines, htemplate.bodyLines]

/-- What a merge makes of the bodies. -/
theorem mergedBy_cases (hb : IsPrismaBlock b) (hT : ∀ tb ∈ T, IsPrismaBlock tb) (h : MergedBy T b m) :
    (linesAdded T b = [] ∧ m = b) ∨ ∃ tb enumeration header body tail header' body' tail',
      T.find? (·.key = b.key) = some tb ∧ memberGrammar tb.type = some enumeration ∧
        IsBlock b.type b.name header body tail b.content ∧ IsBlock tb.type tb.name header' body' tail' tb.content ∧
          linesAdded T b = newLines enumeration (Text.splitAt lineFeed body) [] (Text.splitAt lineFeed body') ∧
            linesAdded T b ≠ [] ∧ m = { b with content := header ++ (mergedBody enumeration (Text.splitAt lineFeed body)
              (Text.splitAt lineFeed body') ++ unit '\x7d' :: tail) } := by
  unfold MergedBy at h
  split at h
  · rename_i hfind
    exact .inl ⟨by rw [linesAdded, hfind], h⟩
  · rename_i tb hfind
    cases hgrammar : memberGrammar tb.type with
    | none =>
        obtain ⟨-, rfl⟩ := (mergeBlock_settings hgrammar).mp h
        exact .inl ⟨by rw [linesAdded, hfind]; dsimp only; rw [hgrammar], rfl⟩
    | some enumeration =>
        obtain ⟨hmerge, hm⟩ := (mergeBlock_members hgrammar).mp h
        obtain ⟨header, body, tail, hblock⟩ := hb
        obtain ⟨header', body', tail', htemplate⟩ := hT tb (List.mem_of_find?_eq_some hfind)
        have hadded := linesAdded_eq hfind hgrammar hblock htemplate
        obtain ⟨-, hcontent⟩ := (mergeMemberLines_ok hblock htemplate).mp hmerge
        split at hcontent
        · rename_i hnil
          rw [hcontent] at hm
          exact .inl ⟨hadded.trans hnil, hm⟩
        · rename_i hne
          rw [hcontent] at hm
          exact .inr ⟨tb, enumeration, header, body, tail, header', body', tail', hfind, hgrammar, hblock, htemplate, hadded,
            hadded ▸ hne, hm⟩

theorem isPrismaBlock_of_mergedBy (hb : IsPrismaBlock b) (hT : ∀ tb ∈ T, IsPrismaBlock tb) (h : MergedBy T b m)
    (hnested : Nested 1 (linesAdded T b) 1) : IsPrismaBlock m := by
  rcases mergedBy_cases hb hT h with ⟨-, rfl⟩ |
    ⟨tb, enumeration, header, body, tail, header', body', tail', -, -, hblock, -, hadded, hne, rfl⟩
  · exact hb
  · rw [hadded] at hne hnested
    exact ⟨header, _, tail, rfl, hblock.isHeader, hblock.header_line,
      isBody_mergedBody hblock.isBody (fun _ h => Text.notMem_of_mem_splitAt h) hne hnested, hblock.trails,
      hblock.tail_line⟩

theorem Laid.replace {separator gap trailing : Text} {lines : List Text} (h : Laid separator gap M trailing lines)
    (hmerged : List.Forall₂ (fun b m => m.before = b.before ∧ IsPrismaBlock m) M merged) :
    ∃ lines', Laid separator gap merged trailing lines' ∧ (lines ≠ [] → lines' ≠ []) := by
  induction h generalizing merged with
  | done =>
      cases hmerged
      exact ⟨[], .done, id⟩
  | trivia hline _ ih =>
      obtain ⟨lines', hlaid, -⟩ := ih hmerged
      exact ⟨_, .trivia hline hlaid, fun _ => List.cons_ne_nil _ _⟩
  | block hbefore _ _ ih =>
      cases hmerged with
      | cons hm hrest =>
          obtain ⟨lines', hlaid, -⟩ := ih hrest
          exact ⟨_, .block (hm.1.trans hbefore) hm.2 hlaid,
            fun _ => List.append_ne_nil_of_left_ne_nil (Text.splitAt_ne_nil _ _) _⟩

theorem Laid.noFeed {separator gap trailing : Text} {lines : List Text} (h : Laid separator gap M trailing lines) :
    ∀ line ∈ lines, lineFeed ∉ line := by
  induction h with
  | done => exact List.forall_mem_nil _
  | trivia hline _ ih => exact List.forall_mem_cons.mpr ⟨hline.noFeed, ih⟩
  | block _ _ _ ih => exact List.forall_mem_append.mpr ⟨fun _ h => Text.notMem_of_mem_splitAt h, ih⟩

/-- Merging brings in no characters but those of the two blocks and line ends. -/
theorem mem_mergedBy {c : CodeUnit} (hb : IsPrismaBlock b) (hT : ∀ tb ∈ T, IsPrismaBlock tb) (h : MergedBy T b m)
    (hc : c ∈ m.text) : c ∈ b.text ∨ (∃ tb ∈ T, c ∈ tb.text) ∨ c = lineFeed := by
  have hcontent : ∀ block : PrismaBlock, c ∈ block.content → c ∈ block.text := fun _ h => List.mem_append_right _ h
  unfold MergedBy at h
  split at h
  · rw [h] at hc
    exact .inl hc
  · rename_i tb hfind
    have htb := List.mem_of_find?_eq_some hfind
    cases hgrammar : memberGrammar tb.type with
    | none =>
        obtain ⟨-, rfl⟩ := (mergeBlock_settings hgrammar).mp h
        exact .inl hc
    | some enumeration =>
        obtain ⟨hmerge, hm⟩ := (mergeBlock_members hgrammar).mp h
        obtain ⟨header, body, tail, hblock⟩ := hb
        obtain ⟨header', body', tail', htemplate⟩ := hT tb htb
        rw [hm] at hc
        rcases List.mem_append.mp hc with hc | hc
        · exact .inl (List.mem_append_left _ hc)
        · rcases mem_mergeMemberLines hblock htemplate hmerge hc with hc | hc | hc
          · exact .inl (hcontent b hc)
          · exact .inr (.inl ⟨tb, htb, hcontent tb hc⟩)
          · exact .inr (.inr hc)

theorem map_key_of_forall₂ {R : PrismaBlock → PrismaBlock → Prop} {bs : List PrismaBlock} (h : List.Forall₂ R M bs)
    (hkey : ∀ b m, R b m → m.key = b.key) : bs.map PrismaBlock.key = M.map PrismaBlock.key := by
  induction h with
  | nil => rfl
  | cons hfirst _ ih => rw [List.map_cons, List.map_cons, ih, hkey _ _ hfirst]

/-- The text of a merge is read back to the merged blocks and the new ones. -/
theorem merge_reads {template : PrismaDocument} (hexisting : parsePrismaDocument existingContent = .ok existing)
    (htemplate : parsePrismaDocument templateContent = .ok template)
    (hmerged : List.Forall₂ (MergedBy template.blocks) existing.blocks merged)
    (hnested : AddedLinesNested existingContent templateContent) : ∃ bs others trailing,
      parsePrismaDocument (renderMerge ⟨merged, newBlocks existing.blocks template.blocks⟩ existing.trailing) =
          .ok ⟨bs ++ others, trailing⟩ ∧ List.Forall₂ SameBlock merged bs ∧
        List.Forall₂ SameBlock (newBlocks existing.blocks template.blocks) others ∧
          renderMerge ⟨bs ++ others, []⟩ trailing =
            renderMerge ⟨merged, newBlocks existing.blocks template.blocks⟩ existing.trailing := by
  obtain ⟨hlaid, hnodup⟩ := parsePrismaDocument_ok.mp hexisting
  obtain ⟨hlaidT, hnodupT⟩ := parsePrismaDocument_ok.mp htemplate
  have hblocks := hlaid.isPrismaBlock
  have hblocksT := hlaidT.isPrismaBlock
  have hisBlock : List.Forall₂ (fun b m => m.before = b.before ∧ IsPrismaBlock m) existing.blocks merged :=
    forall₂_imp_of_mem hmerged fun b hb m _ hm => ⟨by rw [hm.frame], isPrismaBlock_of_mergedBy (hblocks b hb) hblocksT hm
      (hnested existing template hexisting htemplate b hb)⟩
  obtain ⟨lines, hlaidM, hne⟩ := hlaid.replace hisBlock
  have hsegments : ∀ block ∈ newBlocks existing.blocks template.blocks, IsSegment block :=
    fun block hblock => hlaidT.segments (isGap_nil Text.IsSpace.nil) block (List.mem_of_mem_filter hblock)
  obtain ⟨bs, others, trailing, lines', hlaidR, hne', htext, hsame, hsame'⟩ :=
    laid_renderMerge hlaidM (hne (Text.splitAt_ne_nil _ _)) hsegments
  refine ⟨bs, others, trailing, ?_, hsame, hsame', ?_⟩
  · -- the text has no carriage returns, and its lines are the ones it was made of
    have hreturn : carriageReturn ∉ renderMerge ⟨merged, newBlocks existing.blocks template.blocks⟩ existing.trailing := by
      obtain ⟨hnone, htrailing⟩ := return_notMem_document hexisting
      obtain ⟨hnoneT, -⟩ := return_notMem_document htemplate
      intro hmem
      rcases mem_renderMerge hmem with ⟨block, hblock, hc⟩ | hc | hc
      · rcases List.mem_append.mp hblock with hblock | hblock
        · obtain ⟨b, hb, hm⟩ := forall₂_exists_left hmerged hblock
          rcases mem_mergedBy (hblocks b hb) hblocksT hm hc with hc | ⟨tb, htb, hc⟩ | hc
          · exact hnone b hb hc
          · exact hnoneT tb htb hc
          · exact absurd hc (by decide)
        · exact hnoneT block (List.mem_of_mem_filter hblock) hc
      · exact htrailing hc
      · exact absurd hc (by decide)
    refine parsePrismaDocument_ok.mpr ⟨?_, ?_⟩
    · rwa [normalizedLines_of_notMem hreturn, htext, Text.splitAt_joinWith hne' hlaidR.noFeed]
    · have hkeys := map_key_of_forall₂ hsame fun _ _ h => h.key
      have hkeys' := map_key_of_forall₂ hsame' fun _ _ h => h.key
      have hkeysM := map_key_of_forall₂ hmerged fun _ _ h => h.key
      rw [List.map_append, hkeys, hkeys', hkeysM]
      refine List.Nodup.append hnodup (hnodupT.sublist (List.filter_sublist.map _)) ?_
      intro key hkey hkey'
      obtain ⟨block, hblock, rfl⟩ := List.mem_map.mp hkey'
      exact absurd hkey (by simpa using (List.mem_filter.mp hblock).2)
  · have houtput := hlaidR.text
    rw [List.nil_append, following_nil, ← htext] at houtput
    rw [← houtput]
    rfl

end SecPlatform.Compiler.Templates
