import SecPlatform.Compiler.Templates.Lemmas.Conditionals
import SecPlatform.Compiler.Templates.Lemmas.Interpolation
import SecPlatform.Compiler.Templates.Lemmas.PrismaMerge

/-!
# Results about rendering

A text is rendered exactly if it has a meaning as a template, and to that meaning, where the text and the context are
ones that the renderer admits at all.
-/

namespace SecPlatform.Compiler.Templates

open Contracts

variable {content out : Text} {members : List (Text × ContextMember)} {values : TemplateContext}

/-! ## Contexts -/

theorem normalizeValue_ok {key : Text} {member : ContextMember} {value : TemplateContextValue} :
    normalizeValue key member = .ok value ↔ member.Is value := by
  constructor
  · intro h
    cases member with
    | string text => cases h; exact .string text
    | boolean b => cases h; exact .boolean b
    | number n =>
        rw [normalizeValue] at h
        split at h
        · cases h
          exact .number ⟨n, _⟩
        · cases h
    | accessor => cases h
    | null => cases h
    | other valueType => cases h
  · intro h
    cases h with
    | string text => rfl
    | boolean b => rfl
    | number n => rw [normalizeValue, dif_pos n.2]

theorem normalizeContext_ok : normalizeContext (some members) = .ok values ↔ Canonical members values := by
  unfold normalizeContext Canonical
  dsimp only
  rw [mapM_eq_ok]
  have hmember : ∀ (member : Text × ContextMember) (entry : Text × TemplateContextValue),
      normalizeMember member = .ok entry ↔
        entry.1 = member.1 ∧ isTemplateContextKey member.1 ∧ member.2.Is entry.2 := by
    intro member entry
    unfold normalizeMember
    rw [check_bind_eq_ok, require_eq_ok]
    constructor
    · rintro ⟨hkey, h⟩
      obtain ⟨value, hvalue, h⟩ := bind_eq_ok.mp h
      cases h
      exact ⟨rfl, hkey, normalizeValue_ok.mp hvalue⟩
    · rintro ⟨hfirst, hkey, hvalue⟩
      refine ⟨hkey, ?_⟩
      rw [normalizeValue_ok.mpr hvalue, ok_bind, ← hfirst]
      rfl
  simp only [hmember]

/-! ## Rendering -/

/-- A template of at most a mebibyte under a record of canonical keys and data values is rendered to its meaning, and
without one it is refused. -/
theorem renderTemplateString_ok (content : Text) (context : Option (List (Text × ContextMember))) (out : Text) :
    renderTemplateString content context = .ok out ↔ content.utf8Length ≤ TEMPLATE_MAX_INPUT_BYTES ∧
      ∃ members values, context = some members ∧ Canonical members values ∧ Denotes values content out := by
  unfold renderTemplateString assertInputBound
  rw [check_bind_eq_ok, require_eq_ok]
  refine and_congr_right fun _ => ?_
  constructor
  · intro h
    obtain ⟨values, hvalues, h⟩ := bind_eq_ok.mp h
    obtain ⟨shown, hshown, h⟩ := bind_eq_ok.mp h
    obtain ⟨hout, hbound⟩ := interpolate_ok.mp h
    obtain ⟨t, hsource, hwf, hshows, hcount, hdepth⟩ := renderConditionals_ok.mp hshown
    cases context with
    | none => cases hvalues
    | some members =>
        exact ⟨members, values, rfl, normalizeContext_ok.mp hvalues, t, shown, hsource, hwf, hcount, hdepth, hshows, hout,
          hbound⟩
  · rintro ⟨members, values, rfl, hvalues, t, shown, hsource, hwf, hcount, hdepth, hshows, hout, hbound⟩
    rw [normalizeContext_ok.mpr hvalues, ok_bind,
      renderConditionals_ok.mpr ⟨t, hsource, hwf, hshows, hcount, hdepth⟩, ok_bind]
    exact interpolate_ok.mpr ⟨hout, hbound⟩

/-- Text of more than a mebibyte without directives and placeholders. -/
def overlongTemplate : Text := List.replicate (TEMPLATE_MAX_INPUT_BYTES + 1) (unit 'a')

theorem mem_overlongTemplate {c : CodeUnit} (h : c ∈ overlongTemplate) : c = unit 'a' := List.eq_of_mem_replicate h

theorem utf8Length_overlongTemplate : overlongTemplate.utf8Length = TEMPLATE_MAX_INPUT_BYTES + 1 := by
  rw [Text.utf8Length_of_isAscii, overlongTemplate, List.length_replicate]
  intro c hc
  rw [mem_overlongTemplate hc]
  decide

/-- Such a text is its own meaning, but it is refused. -/
theorem not_renderTemplateString_overlong : Canonical [] [] ∧ Denotes [] overlongTemplate overlongTemplate ∧
    ¬∃ out, renderTemplateString overlongTemplate (some []) = .ok out := by
  refine ⟨.nil, ⟨.plain overlongTemplate, overlongTemplate, rfl, ?_, Nat.zero_le _, Nat.zero_le _, .plain _, .plain ?_, ?_⟩, ?_⟩
  · intro hmarker
    have hmem : unit '#' ∈ overlongTemplate := hmarker.subset (by decide)
    exact absurd (mem_overlongTemplate hmem) (by decide)
  · intro i _ key behind hfound
    have hmem : unit '_' ∈ overlongTemplate.drop i := hfound.mark.subset (by decide)
    exact absurd (mem_overlongTemplate (List.mem_of_mem_drop hmem)) (by decide)
  · rw [utf8Length_overlongTemplate]
    decide
  · rintro ⟨out, h⟩
    obtain ⟨hbound, -⟩ := (renderTemplateString_ok _ _ _).mp h
    rw [utf8Length_overlongTemplate] at hbound
    exact absurd hbound (Nat.not_succ_le_self _)

end SecPlatform.Compiler.Templates

/-!
## Results about merging Prisma schemas

A merge loses nothing: it is read back to the existing blocks, each with the lines that the template adds to it, and to
the blocks that are new. Merging the same template again changes nothing, where it succeeds.
-/

namespace SecPlatform.Compiler.Templates

open Contracts

variable {existingContent templateContent merge : Text} {T : List PrismaBlock} {b m x tb : PrismaBlock}

/-! ### Merging again -/

theorem mem_newBlocks {existing template : List PrismaBlock} :
    b ∈ newBlocks existing template ↔ b ∈ template ∧ ∀ other ∈ existing, other.key ≠ b.key := by
  rw [newBlocks, List.mem_filter]
  simp

theorem memberGrammar_congr (h : SameBlock b x) : memberGrammar x.type = memberGrammar b.type := by rw [h.type_eq]

/-- A merged block, merged again. -/
theorem mergedBy_again (hb : IsPrismaBlock b) (hT : ∀ tb ∈ T, IsPrismaBlock tb) (h : MergedBy T b m)
    (hnested : Nested 1 (linesAdded T b) 1) (hsame : SameBlock m x) (hreturn : carriageReturn ∉ m.content)
    (hreturn' : carriageReturn ∉ x.content) : MergedBy T x x := by
  have hkey : x.key = b.key := hsame.key.trans h.key
  unfold MergedBy at h ⊢
  rw [hkey]
  split
  · rfl
  · rename_i tb hfind
    rw [hfind] at h
    dsimp only at h
    cases hgrammar : memberGrammar tb.type with
    | none =>
        obtain ⟨hnormalized, rfl⟩ := (mergeBlock_settings hgrammar).mp h
        refine (mergeBlock_settings hgrammar).mpr ⟨?_, rfl⟩
        rw [normalizedBlock_congr hreturn' hreturn hsame.content_eq, hnormalized]
    | some enumeration =>
        obtain ⟨hmerge, -⟩ := (mergeBlock_members hgrammar).mp h
        obtain ⟨header, body, tail, hblock⟩ := hb
        obtain ⟨header', body', tail', htemplate⟩ := hT tb (List.mem_of_find?_eq_some hfind)
        obtain ⟨hmergeable, hcontent⟩ := (mergeMemberLines_ok hblock htemplate).mp hmerge
        obtain ⟨-, -, -, headerM, headerX, bodyM, tailM, tailX, hm, hx⟩ := hsame
        refine (mergeBlock_members hgrammar).mpr ⟨(mergeMemberLines_ok hx htemplate).mpr ?_, rfl⟩
        have hlines := hm.bodyLines
        split at hcontent
        · rename_i hnil
          rw [hcontent, hblock.bodyLines] at hlines
          rw [← Except.ok.inj hlines]
          exact ⟨hmergeable, by rw [if_pos hnil]⟩
        · rename_i hne
          rw [linesAdded_eq hfind hgrammar hblock htemplate] at hnested
          have hmerged : IsBlock b.type b.name header _ tail m.content := ⟨hcontent, hblock.isHeader, hblock.header_line,
            isBody_mergedBody hblock.isBody (fun _ h => Text.notMem_of_mem_splitAt h) hne hnested, hblock.trails,
            hblock.tail_line⟩
          rw [hmerged.bodyLines, splitAt_mergedBody (fun _ h => Text.notMem_of_mem_splitAt h)
            (fun _ h => Text.notMem_of_mem_splitAt h) hne] at hlines
          rw [← Except.ok.inj hlines]
          obtain ⟨hagain, hnil⟩ := mergeable_again hmergeable
          exact ⟨hagain, by rw [if_pos hnil]⟩

/-- A new block, merged again: it is in the grammar of members or it is refused. -/
theorem mergedBy_new (hfind : T.find? (·.key = x.key) = some tb) (hsame : SameBlock tb x)
    (hreturn : carriageReturn ∉ tb.content) (hreturn' : carriageReturn ∉ x.content) :
    MergedBy T x m ↔ m = x ∧ ∀ enumeration lines, memberGrammar tb.type = some enumeration →
      bodyLines tb.content = .ok lines → (∀ line ∈ lines, IsSupported enumeration line) ∧ Agree enumeration lines := by
  unfold MergedBy
  rw [hfind]
  dsimp only
  cases hgrammar : memberGrammar tb.type with
  | none =>
      rw [mergeBlock_settings hgrammar]
      refine ⟨fun h => ⟨h.2, nofun⟩, fun h => ⟨?_, h.1⟩⟩
      exact normalizedBlock_congr hreturn' hreturn hsame.content_eq
  | some enumeration =>
      obtain ⟨-, -, -, header, header', body, tail, tail', hblock, hx⟩ := hsame
      rw [mergeBlock_members hgrammar, mergeMemberLines_ok hx hblock, mergeable_self, hblock.bodyLines, newLines_self,
        if_pos rfl]
      constructor
      · rintro ⟨⟨hagree, hcontent⟩, hm⟩
        refine ⟨by rw [hm, hcontent], ?_⟩
        rintro _ _ ⟨⟩ ⟨⟩
        exact hagree
      · rintro ⟨rfl, hagree⟩
        exact ⟨⟨hagree _ _ rfl rfl, rfl⟩, rfl⟩

/-- Where the added lines keep the braces of their blocks, the template is merged again without a change exactly if the
blocks that it brought in are in the grammar of members. -/
theorem mergePrismaSchemas_again (h : mergePrismaSchemas existingContent templateContent = .ok merge)
    (hnested : AddedLinesNested existingContent templateContent) :
    mergePrismaSchemas merge templateContent = .ok merge ↔ AddedBlocksAgree existingContent templateContent := by
  obtain ⟨existing, template, merged, hexisting, htemplate, hmerged, rfl⟩ := mergePrismaSchemas_ok.mp h
  obtain ⟨bs, others, trailing, hread, hsame, hsame', htext⟩ := merge_reads hexisting htemplate hmerged hnested
  have hblocks := (parsePrismaDocument_ok.mp hexisting).1.isPrismaBlock
  obtain ⟨hlaidT, hnodupT⟩ := parsePrismaDocument_ok.mp htemplate
  have hblocksT := hlaidT.isPrismaBlock
  obtain ⟨hnoneT, -⟩ := return_notMem_document htemplate
  obtain ⟨hnone, -⟩ := return_notMem_document hexisting
  obtain ⟨hnoneR, -⟩ := return_notMem_document hread
  have hcontent : ∀ block : PrismaBlock, carriageReturn ∉ block.text → carriageReturn ∉ block.content :=
    fun _ h hmem => h (List.mem_append_right _ hmem)
  -- the blocks that were merged
  have hagain : ∀ x ∈ bs, MergedBy template.blocks x x := by
    intro x hx
    obtain ⟨m, hm, hsameX⟩ := forall₂_exists_left hsame hx
    obtain ⟨b, hb, hmergedB⟩ := forall₂_exists_left hmerged hm
    refine mergedBy_again (hblocks b hb) hblocksT hmergedB (hnested existing template hexisting htemplate b hb) hsameX
      (hcontent m ?_) (hcontent x (hnoneR x (List.mem_append_left _ hx)))
    intro hmem
    rcases mem_mergedBy (hblocks b hb) hblocksT hmergedB hmem with hmem | ⟨tb, htb, hmem⟩ | hmem
    · exact hnone b hb hmem
    · exact hnoneT tb htb hmem
    · exact absurd hmem (by decide)
  -- the blocks that were added
  have hadded : ∀ tb ∈ newBlocks existing.blocks template.blocks, ∀ x ∈ others, SameBlock tb x → ∀ m,
      MergedBy template.blocks x m ↔ m = x ∧ ∀ enumeration lines, memberGrammar tb.type = some enumeration →
        bodyLines tb.content = .ok lines → (∀ line ∈ lines, IsSupported enumeration line) ∧ Agree enumeration lines := by
    intro tb htb x hx hsameX m
    have hmem := (mem_newBlocks.mp htb).1
    exact mergedBy_new (hsameX.key ▸ find?_key_of_mem hnodupT hmem) hsameX (hcontent tb (hnoneT tb hmem))
      (hcontent x (hnoneR x (List.mem_append_right _ hx)))
  rw [mergePrismaSchemas_ok]
  constructor
  · rintro ⟨result, template', merged', hresult, htemplate', hmerged', -⟩
    cases hread.symm.trans hresult
    cases htemplate.symm.trans htemplate'
    intro existing' template' hexisting' htemplate'' tb htb
    cases hexisting.symm.trans hexisting'
    cases htemplate.symm.trans htemplate''
    obtain ⟨x, hx, hsameX⟩ := forall₂_exists_right hsame' htb
    obtain ⟨m, -, hm⟩ := forall₂_exists_right hmerged' (List.mem_append_right bs hx)
    exact ((hadded tb htb x hx hsameX m).mp hm).2
  · intro hagree
    refine ⟨_, template, bs ++ others, hread, htemplate, List.forall₂_same.mpr fun x hx => ?_, ?_⟩
    · rcases List.mem_append.mp hx with hx | hx
      · exact hagain x hx
      · obtain ⟨tb, htb, hsameX⟩ := forall₂_exists_left hsame' hx
        exact (hadded tb htb x hx hsameX x).mpr ⟨rfl, hagree existing template hexisting htemplate tb htb⟩
    · have hnew : newBlocks (bs ++ others) template.blocks = [] := by
        refine List.filter_eq_nil_iff.mpr fun tb htb => ?_
        rw [decide_eq_true_eq, not_not, List.map_append, map_key_of_forall₂ hsame fun _ _ h => h.key,
          map_key_of_forall₂ hmerged fun _ _ h => h.key, map_key_of_forall₂ hsame' fun _ _ h => h.key, List.mem_append]
        by_cases hkey : tb.key ∈ existing.blocks.map PrismaBlock.key
        · exact .inl hkey
        · exact .inr (List.mem_map_of_mem (List.mem_filter.mpr ⟨htb, by simpa using hkey⟩))
      dsimp only
      rw [hnew, htext]

/-- An enumeration with an attribute of the block. -/
def mappedEnum : Text := "enum Role \x7b\n  ADMIN\n  @@map(\"role\")\n\x7d\n"

/-- A block that is new is copied as it is, and refused as an existing one. -/
theorem not_mergePrismaSchemas_again : mergePrismaSchemas [] mappedEnum = .ok mappedEnum ∧
    mergePrismaSchemas mappedEnum mappedEnum = .error ⟨"COMPOSE-PRISMA-002",
      "enum:Role contains unsupported enum syntax: @@map(\"role\")", none⟩ := by
  constructor <;> decide

/-- A model with one field. -/
def idModel : Text := "model A \x7b\n id Int\n\x7d\n"

def nameModel : Text := "model A \x7b\n // label\n name Text\n\x7d\n"

def bothModel : Text := "model A \x7b\n id Int\n // label\n name Text\n\x7d\n"

/-- A scan that can be evaluated is nested if it ends where it should. -/
theorem nested_of_scan {d d' d'' : Nat} {line : Text} {lines : List Text}
    (hscan : scanPrismaLine line d = .ok (.plain (d' + 1) none)) (hlines : Nested (d' + 1) lines d'') :
    Nested d (line :: lines) d'' := .cons hscan (Nat.succ_pos _) hlines

theorem nested_nameModel : AddedLinesNested idModel nameModel := by
  intro existing template hexisting htemplate block hblock
  have hid : parsePrismaDocument idModel = .ok ⟨[⟨"model", "A", "model A \x7b\n id Int\n\x7d", []⟩], "\n"⟩ := rfl
  have hname : parsePrismaDocument nameModel =
      .ok ⟨[⟨"model", "A", "model A \x7b\n // label\n name Text\n\x7d", []⟩], "\n"⟩ := rfl
  cases hid.symm.trans hexisting
  cases hname.symm.trans htemplate
  rw [List.mem_singleton.mp hblock]
  have hadded : linesAdded [⟨"model", "A", "model A \x7b\n // label\n name Text\n\x7d", []⟩]
      ⟨"model", "A", "model A \x7b\n id Int\n\x7d", []⟩ = [" // label", " name Text"] := by decide
  rw [hadded]
  exact nested_of_scan rfl (nested_of_scan rfl (.nil 1))

theorem mergePrismaSchemas_again_nameModel :
    mergePrismaSchemas bothModel nameModel = .ok bothModel ↔ AddedBlocksAgree idModel nameModel :=
  mergePrismaSchemas_again (by decide) nested_nameModel

/-! ### What a merge keeps -/

theorem joinWith_mergedLines {lines : List Text} (hne : lines ≠ []) :
    Text.joinWith [lineFeed] ([] :: lines ++ [[]]) = [lineFeed] ++ (Text.joinWith [lineFeed] lines ++ [lineFeed]) := by
  obtain ⟨line, rest, rfl⟩ := List.exists_cons_of_ne_nil hne
  rw [Text.joinWith_append (List.cons_ne_nil _ _) (List.cons_ne_nil _ _), Text.joinWith_cons_cons]
  simp [Text.joinWith]

theorem keeps_of_mergedBy (hb : IsPrismaBlock b) (hT : ∀ tb ∈ T, IsPrismaBlock tb) (h : MergedBy T b m)
    (hnested : Nested 1 (linesAdded T b) 1) (hsame : SameBlock m x) : Keeps T b x := by
  have hframe := h.frame
  refine ⟨by rw [hsame.type_eq, hframe], by rw [hsame.name_eq, hframe], fun hnil => ?_, fun hne => ?_⟩
  · rcases mergedBy_cases hb hT h with ⟨-, rfl⟩ | ⟨tb, enumeration, header, body, tail, header', body', tail', -, -, -, -, -,
      hne, -⟩
    · exact hsame.content_eq
    · exact absurd hnil hne
  · rcases mergedBy_cases hb hT h with ⟨hnil, -⟩ | ⟨tb, enumeration, header, body, tail, header', body', tail', hfind, hgrammar,
      hblock, htemplate, hadded, -, hm⟩
    · exact absurd hnil hne
    · have hnew := hadded ▸ hne
      have hmerged : IsBlock b.type b.name header _ tail m.content := ⟨by rw [hm], hblock.isHeader, hblock.header_line,
        isBody_mergedBody hblock.isBody (fun _ h => Text.notMem_of_mem_splitAt h) hnew (hadded ▸ hnested), hblock.trails,
        hblock.tail_line⟩
      have hlines := hmerged.bodyLines
      rw [splitAt_mergedBody (fun _ h => Text.notMem_of_mem_splitAt h) (fun _ h => Text.notMem_of_mem_splitAt h) hnew]
        at hlines
      refine ⟨header, body, unit '\x7d' :: tail, _, hblock.content_eq, rfl, ?_, hblock.bodyLines, ?_⟩
      · rw [hsame.content_eq, hm, hadded, joinWith_mergedLines (List.append_ne_nil_of_right_ne_nil _ hnew)]
        rfl
      · rw [hsame.bodyLines, hlines, hadded]

theorem conflicts_of_not_merges (hb : IsPrismaBlock b) (htb : IsPrismaBlock tb) (h : ∀ m, mergeBlock b tb ≠ .ok m) :
    Conflicts b tb := by
  cases hgrammar : memberGrammar tb.type with
  | none => exact .settings hgrammar fun heq => h b ((mergeBlock_settings hgrammar).mpr ⟨heq, rfl⟩)
  | some enumeration =>
      obtain ⟨header, body, tail, hblock⟩ := hb
      obtain ⟨header', body', tail', htemplate⟩ := htb
      by_contra hnone
      have hsupported : ∀ line ∈ Text.splitAt lineFeed body ++ Text.splitAt lineFeed body', IsSupported enumeration line :=
        fun line hline => by_contra fun hnot =>
          hnone (.unsupported hgrammar hblock.bodyLines htemplate.bodyLines hline hnot)
      have hagree : Agree enumeration (Text.splitAt lineFeed body ++ Text.splitAt lineFeed body') :=
        fun line hline other hother name hmember hmember' => by_contra fun hne =>
          hnone (.members hgrammar hblock.bodyLines htemplate.bodyLines hline hother hmember hmember' hne)
      have hmergeable : Mergeable enumeration (Text.splitAt lineFeed body) (Text.splitAt lineFeed body') :=
        ⟨fun _ line hline => hsupported line (List.mem_append_left _ hline),
          fun line hline => hsupported line (List.mem_append_right _ hline), hagree⟩
      exact h { b with content := _ } ((mergeBlock_members hgrammar).mpr
        ⟨(mergeMemberLines_ok hblock htemplate).mpr ⟨hmergeable, rfl⟩, rfl⟩)

/-- A merge is read back to the existing blocks, each with the lines that the template adds to it, and the new blocks of
the template; and where both schemas can be read it fails only over two blocks of one key. -/
theorem mergePrismaSchemas_keeps (existingContent templateContent : Text) :
    (∀ merge, mergePrismaSchemas existingContent templateContent = .ok merge →
      AddedLinesNested existingContent templateContent → ∃ existing template result kept added,
        parsePrismaDocument existingContent = .ok existing ∧ parsePrismaDocument templateContent = .ok template ∧
          parsePrismaDocument merge = .ok result ∧ result.blocks = kept ++ added ∧
            List.Forall₂ (Keeps template.blocks) existing.blocks kept ∧
              List.Forall₂ Copies (newBlocks existing.blocks template.blocks) added) ∧
    (∀ existing template failure, parsePrismaDocument existingContent = .ok existing →
      parsePrismaDocument templateContent = .ok template →
        mergePrismaSchemas existingContent templateContent = .error failure →
          ∃ block ∈ existing.blocks, ∃ templateBlock ∈ template.blocks, templateBlock.key = block.key ∧
            Conflicts block templateBlock) := by
  constructor
  · intro merge h hnested
    obtain ⟨existing, template, merged, hexisting, htemplate, hmerged, rfl⟩ := mergePrismaSchemas_ok.mp h
    obtain ⟨bs, others, trailing, hread, hsame, hsame', -⟩ := merge_reads hexisting htemplate hmerged hnested
    have hblocks := (parsePrismaDocument_ok.mp hexisting).1.isPrismaBlock
    have hblocksT := (parsePrismaDocument_ok.mp htemplate).1.isPrismaBlock
    refine ⟨existing, template, _, bs, others, hexisting, htemplate, hread, rfl, ?_, hsame'.imp fun b x h =>
      ⟨h.type_eq, h.name_eq, h.content_eq⟩⟩
    have hboth := forall₂_trans hmerged hsame
    exact forall₂_imp_of_mem hboth fun b hb x _ ⟨m, hm, hx⟩ =>
      keeps_of_mergedBy (hblocks b hb) hblocksT hm (hnested existing template hexisting htemplate b hb) hx
  · intro existing template failure hexisting htemplate h
    have hblocks := (parsePrismaDocument_ok.mp hexisting).1.isPrismaBlock
    have hblocksT := (parsePrismaDocument_ok.mp htemplate).1.isPrismaBlock
    by_contra hnone
    -- every block has a merge, so the schemas have one
    have hall : ∀ b ∈ existing.blocks, ∃ m, MergedBy template.blocks b m := by
      intro b hb
      unfold MergedBy
      split
      · exact ⟨b, rfl⟩
      · rename_i tb hfind
        have htb := List.mem_of_find?_eq_some hfind
        by_contra hnot
        exact hnone ⟨b, hb, tb, htb, by simpa using List.find?_some hfind,
          conflicts_of_not_merges (hblocks b hb) (hblocksT tb htb) fun m hm => hnot ⟨m, hm⟩⟩
    obtain ⟨merged, hmerged⟩ := exists_forall₂ hall
    rw [mergePrismaSchemas_ok.mpr ⟨existing, template, merged, hexisting, htemplate, hmerged, rfl⟩] at h
    cases h

theorem mergePrismaSchemas_keeps_nameModel : ∃ existing template result kept added,
    parsePrismaDocument idModel = .ok existing ∧ parsePrismaDocument nameModel = .ok template ∧
      parsePrismaDocument bothModel = .ok result ∧ result.blocks = kept ++ added ∧
        List.Forall₂ (Keeps template.blocks) existing.blocks kept ∧
          List.Forall₂ Copies (newBlocks existing.blocks template.blocks) added :=
  (mergePrismaSchemas_keeps idModel nameModel).1 bothModel (by decide) nested_nameModel

/-- A comment of the template is added with the member it stands before, although it declares nothing. -/
theorem not_only_declarations : mergePrismaSchemas idModel nameModel = .ok bothModel ∧
    (parsePrismaDocument bothModel).map (·.blocks.map fun block => bodyLines block.content) =
      .ok [.ok [[], " id Int", " // label", " name Text", []]] ∧
    (parsePrismaDocument idModel).map (·.blocks.map fun block => bodyLines block.content) =
      .ok [.ok [[], " id Int", []]] ∧ declaration false " // label" = none := by
  refine ⟨by decide, rfl, rfl, by decide⟩

end SecPlatform.Compiler.Templates
