import SecPlatform.Compiler.Templates.Lemmas.PrismaBlocks

/-!
# Documents

A document is read exactly if its lines are empty lines, comments and whole blocks; what stands between two blocks
belongs to the second one.
-/

namespace SecPlatform.Compiler.Templates

open Contracts

variable {separator gap trailing line : Text} {lines rest : List Text} {block b : PrismaBlock} {blocks bs : List PrismaBlock}
  {d : Nat} {s : DocumentScan}

/-! ## The relation -/

/-- A line that may stand between two blocks. -/
structure IsTrivia (line : Text) : Prop where
  comment : line.trim = [] ∨ Text.ofString "//" <+: line.trim
  noFeed : lineFeed ∉ line

theorem IsTrivia.matchBlockHeader (h : IsTrivia line) : matchBlockHeader line.trim = none := by
  cases hmatch : Templates.matchBlockHeader line.trim with
  | none => rfl
  | some found =>
      obtain ⟨gap, space, b, htrim, htype, -⟩ := matchBlockHeader_eq_some.mp hmatch
      obtain ⟨c, type, hcons⟩ := List.exists_cons_of_ne_nil
        (show found.1 ≠ [] from fun h => absurd (h ▸ htype) (by decide))
      have hc := isNameUnit_of_blockType htype c (hcons ▸ List.mem_cons_self)
      rw [hcons, List.cons_append] at htrim
      rcases h.comment with hnil | ⟨rest, hcomment⟩
      · rw [htrim] at hnil
        cases hnil
      · rw [htrim] at hcomment
        have hslash : unit '/' = c := (List.cons.inj hcomment).1
        exact absurd (hslash ▸ hc) (by decide)

/-- The text of the block is that of a block of its type and name. -/
def IsPrismaBlock (block : PrismaBlock) : Prop :=
  ∃ header body tail, IsBlock block.type block.name header body tail block.content

/-- The lines of blocks and of what stands between them, behind a part of the first gap. -/
inductive Laid : Text → Text → List PrismaBlock → Text → List Text → Prop
  | done {separator gap : Text} : Laid separator gap [] gap []
  | trivia {separator gap trailing line : Text} {blocks : List PrismaBlock} {lines : List Text} (hline : IsTrivia line)
      (h : Laid [lineFeed] (gap ++ separator ++ line) blocks trailing lines) :
      Laid separator gap blocks trailing (line :: lines)
  | block {separator gap trailing : Text} {block : PrismaBlock} {blocks : List PrismaBlock} {lines : List Text}
      (hbefore : block.before = gap ++ separator) (hblock : IsPrismaBlock block)
      (h : Laid [lineFeed] [] blocks trailing lines) :
      Laid separator gap (block :: blocks) trailing (Text.splitAt lineFeed block.content ++ lines)

/-! ## Reading a block -/

theorem endLine_pos (hd : 0 < d) (s : DocumentScan) (block : PrismaBlock) :
    s.endLine block d = ⟨s.blocks, [], some (block, d)⟩ := if_neg (Nat.pos_iff_ne_zero.mp hd)

/-- The rest of an open block is read. -/
theorem parsePrismaLines_open (hd : 0 < d) (h : Closes d lines) :
    parsePrismaLines [lineFeed] (lines ++ rest) ⟨blocks, gap, some (block, d)⟩ =
      parsePrismaLines [lineFeed] rest ⟨blocks ++
        [{ block with content := block.content ++ [lineFeed] ++ Text.joinWith [lineFeed] lines }], [], none⟩ := by
  induction h generalizing block gap with
  | last hscan hdepth =>
      rw [List.singleton_append, parsePrismaLines, parsePrismaLine]
      dsimp only
      rw [hscan, ok_bind, hdepth]
      rfl
  | @cons d line lines r hscan hpos hlines ih =>
      rw [List.cons_append, parsePrismaLines, parsePrismaLine]
      dsimp only
      rw [hscan, ok_bind, pure_bind, endLine_pos hpos, ih hpos]
      obtain ⟨next, rest, rfl⟩ : ∃ next rest, lines = next :: rest := by
        cases hlines with
        | last => exact ⟨_, _, rfl⟩
        | cons => exact ⟨_, _, rfl⟩
      rw [Text.joinWith_cons_cons]
      simp only [List.append_assoc]

/-- A document does not end inside a block. -/
theorem closes_of_parsePrismaLines (hd : 0 < d)
    (h : parsePrismaLines [lineFeed] lines ⟨blocks, gap, some (block, d)⟩ = .ok s) (hs : s.currentBlock = none) :
    ∃ first rest, lines = first ++ rest ∧ Closes d first := by
  induction lines generalizing block d gap with
  | nil =>
      cases h
      cases hs
  | cons line lines ih =>
      obtain ⟨next, hnext, h⟩ := bind_eq_ok.mp h
      obtain ⟨r, hscan, hnext⟩ := bind_eq_ok.mp hnext
      cases hnext
      rcases Nat.eq_zero_or_pos r.depth with hdepth | hpos
      · exact ⟨[line], lines, rfl, .last hscan hdepth⟩
      · rw [endLine_pos hpos] at h
        obtain ⟨first, rest, rfl, hcloses⟩ := ih hpos h
        exact ⟨line :: first, rest, rfl, .cons hscan hpos hcloses⟩

theorem parsePrismaLines_block (hb : IsPrismaBlock b) :
    parsePrismaLines separator (Text.splitAt lineFeed b.content ++ rest) ⟨blocks, gap, none⟩ =
      parsePrismaLines [lineFeed] rest ⟨blocks ++ [{ b with before := gap ++ separator }], [], none⟩ := by
  obtain ⟨header, body, tail, h⟩ := hb
  obtain ⟨first, others, hsplit, hcloses⟩ := h.closes
  have hjoin := Text.joinWith_splitAt lineFeed b.content
  have hmatch : matchBlockHeader (header ++ first).trim = some (b.type, b.name) :=
    matchBlockHeader_trim.mpr ⟨header, first, rfl, h.isHeader⟩
  rw [hsplit] at hjoin ⊢
  rw [List.cons_append, parsePrismaLines, parsePrismaLine]
  dsimp only
  rw [hmatch]
  dsimp only
  cases hcloses with
  | last hscan hdepth =>
      rw [(scanPrismaLine_header h.isHeader).mpr ⟨_, hscan, rfl⟩, ok_bind, pure_bind]
      have hcontent : header ++ first = b.content := hjoin
      rw [hcontent, LineScan.behind, hdepth]
      rfl
  | cons hscan hpos hlines =>
      rw [(scanPrismaLine_header h.isHeader).mpr ⟨_, hscan, rfl⟩, ok_bind, pure_bind, LineScan.behind, endLine_pos hpos,
        parsePrismaLines_open hpos hlines]
      obtain ⟨next, rest, rfl⟩ : ∃ next rest, others = next :: rest := by
        cases hlines with
        | last => exact ⟨_, _, rfl⟩
        | cons => exact ⟨_, _, rfl⟩
      rw [Text.joinWith_cons_cons] at hjoin
      dsimp only
      rw [List.append_assoc, hjoin]

/-! ## Reading a document -/

theorem parsePrismaLines_of_laid (h : Laid separator gap bs trailing lines) :
    parsePrismaLines separator lines ⟨blocks, gap, none⟩ = .ok ⟨blocks ++ bs, trailing, none⟩ := by
  induction h generalizing blocks with
  | done => rw [parsePrismaLines, List.append_nil]
  | trivia hline _ ih =>
      rw [parsePrismaLines, parsePrismaLine]
      dsimp only
      rw [hline.matchBlockHeader]
      dsimp only
      rw [prismaRequire_of hline.comment, ok_bind, pure_bind, ih]
  | block hbefore hblock _ ih =>
      rw [parsePrismaLines_block hblock, ih, ← hbefore, List.append_assoc]
      rfl

theorem laid_of_parsePrismaLines (hlines : ∀ line ∈ lines, lineFeed ∉ line)
    (h : parsePrismaLines separator lines ⟨blocks, gap, none⟩ = .ok s) (hs : s.currentBlock = none) :
    ∃ bs, s.blocks = blocks ++ bs ∧ Laid separator gap bs s.gap lines := by
  induction hlength : lines.length using Nat.strong_induction_on generalizing lines blocks gap separator with
  | _ n ih =>
      subst hlength
      cases lines with
      | nil =>
          cases h
          exact ⟨[], (List.append_nil _).symm, .done⟩
      | cons line lines =>
          obtain ⟨hline, hlines'⟩ := List.forall_mem_cons.mp hlines
          have hparse := h
          obtain ⟨next, hnext, h⟩ := bind_eq_ok.mp h
          unfold parsePrismaLine at hnext
          dsimp only at hnext
          split at hnext
          · -- a block
            rename_i type name hmatch
            obtain ⟨header, first, rfl, hheader⟩ := matchBlockHeader_trim.mp hmatch
            obtain ⟨r, hscan, hnext⟩ := bind_eq_ok.mp hnext
            obtain ⟨r', hscan', rfl⟩ := (scanPrismaLine_header hheader).mp hscan
            cases hnext
            have hblock : ∃ blockLines rest, lines = blockLines ++ rest ∧ Closes 1 (first :: blockLines) := by
              rcases Nat.eq_zero_or_pos r'.depth with hdepth | hpos
              · exact ⟨[], lines, rfl, .last hscan' hdepth⟩
              · rw [LineScan.behind, endLine_pos hpos] at h
                obtain ⟨blockLines, rest, rfl, hcloses⟩ := closes_of_parsePrismaLines hpos h hs
                exact ⟨blockLines, rest, rfl, .cons hscan' hpos hcloses⟩
            obtain ⟨blockLines, rest, rfl, hcloses⟩ := hblock
            have hblockLines : ∀ line ∈ (header ++ first) :: blockLines, lineFeed ∉ line :=
              fun other h => hlines other (by
                rw [← List.cons_append]
                exact List.mem_append_left _ h)
            obtain ⟨body, tail, hisBlock⟩ := isBlock_of_closes hheader hblockLines hcloses
            have hsplit := Text.splitAt_joinWith (List.cons_ne_nil _ _) hblockLines
            generalize Text.joinWith [lineFeed] ((header ++ first) :: blockLines) = content at hisBlock hsplit
            have hb : IsPrismaBlock ⟨type, name, content, gap ++ separator⟩ := ⟨header, body, tail, hisBlock⟩
            rw [← List.cons_append, ← hsplit] at hparse
            rw [parsePrismaLines_block hb] at hparse
            obtain ⟨bs, hbs, hlaid⟩ := ih rest.length (by simp only [List.length_cons, List.length_append]; omega)
              (fun line h => hlines' line (List.mem_append_right _ h)) hparse rfl
            refine ⟨_ :: bs, by rw [hbs, List.append_assoc]; rfl, ?_⟩
            rw [← List.cons_append, ← hsplit]
            exact .block rfl hb hlaid
          · obtain ⟨htrivia, hnext⟩ := check_bind_eq_ok.mp hnext
            cases hnext
            obtain ⟨bs, hbs, hlaid⟩ := ih lines.length (Nat.lt_succ_self _) hlines' h rfl
            exact ⟨bs, hbs, .trivia ⟨prismaRequire_eq_ok.mp htrivia, hline⟩ hlaid⟩

theorem assertUniqueBlocks_ok {label : Text} {seen : List Text} : assertUniqueBlocks label blocks seen = .ok () ↔
    (blocks.map PrismaBlock.key).Nodup ∧ ∀ block ∈ blocks, block.key ∉ seen := by
  induction blocks generalizing seen with
  | nil => simp [assertUniqueBlocks]
  | cons block blocks ih =>
      rw [assertUniqueBlocks, check_bind_eq_ok, prismaRequire_eq_ok, ih, List.map_cons, List.nodup_cons,
        List.forall_mem_cons]
      simp only [List.mem_append, List.mem_singleton, not_or, List.mem_map, not_exists, not_and]
      constructor
      · rintro ⟨hseen, hnodup, hrest⟩
        exact ⟨⟨fun other hother => (hrest other hother).2, hnodup⟩, hseen, fun other hother => (hrest other hother).1⟩
      · rintro ⟨⟨hne, hnodup⟩, hseen, hrest⟩
        exact ⟨hseen, hnodup, fun other hother => ⟨hrest other hother, hne other hother⟩⟩

/-- A document is read to the blocks that its lines are laid out in. -/
theorem parsePrismaDocument_ok {content : Text} {document : PrismaDocument} : parsePrismaDocument content = .ok document ↔
    Laid [] [] document.blocks document.trailing (Text.splitAt lineFeed (normalizedLines content)) ∧
      (document.blocks.map PrismaBlock.key).Nodup := by
  unfold parsePrismaDocument
  constructor
  · intro h
    obtain ⟨s, hs, h⟩ := bind_eq_ok.mp h
    unfold endDocument at h
    split at h
    · cases h
    · rename_i hcurrent
      obtain ⟨hunique, h⟩ := check_bind_eq_ok.mp h
      cases h
      obtain ⟨bs, hbs, hlaid⟩ := laid_of_parsePrismaLines (fun line h => Text.notMem_of_mem_splitAt h) hs hcurrent
      rw [List.nil_append] at hbs
      rw [hbs] at hunique ⊢
      exact ⟨hlaid, (assertUniqueBlocks_ok.mp hunique).1⟩
  · rintro ⟨hlaid, hnodup⟩
    rw [parsePrismaLines_of_laid hlaid, ok_bind, endDocument]
    dsimp only
    rw [List.nil_append, assertUniqueBlocks_ok.mpr ⟨hnodup, fun _ _ => List.not_mem_nil⟩, ok_bind]
    rfl

/-! ## The text of a document -/

/-- The lines, each behind what stands between it and the text before. -/
def following (separator : Text) : List Text → Text
  | [] => []
  | line :: lines => separator ++ (line ++ following [lineFeed] lines)

theorem following_append (hne : lines ≠ []) (rest : List Text) :
    following separator (lines ++ rest) = following separator lines ++ following [lineFeed] rest := by
  induction lines generalizing separator with
  | nil => exact absurd rfl hne
  | cons line lines ih =>
      rw [List.cons_append, following, following]
      cases lines with
      | nil => simp only [following, List.nil_append, List.append_nil, List.append_assoc]
      | cons next lines =>
          rw [ih (List.cons_ne_nil _ _)]
          simp only [List.append_assoc]

theorem following_eq (hne : lines ≠ []) : following separator lines = separator ++ Text.joinWith [lineFeed] lines := by
  induction lines generalizing separator with
  | nil => exact absurd rfl hne
  | cons line lines ih =>
      cases lines with
      | nil => simp only [following, Text.joinWith, List.append_nil]
      | cons next lines => rw [following, ih (List.cons_ne_nil _ _), Text.joinWith_cons_cons]

theorem following_splitAt (separator content : Text) :
    following separator (Text.splitAt lineFeed content) = separator ++ content := by
  rw [following_eq (Text.splitAt_ne_nil _ _), Text.joinWith_splitAt]

/-- The blocks and the rest are the text that has been read. -/
theorem Laid.text (h : Laid separator gap bs trailing lines) :
    (bs.map PrismaBlock.text).flatten ++ trailing = gap ++ following separator lines := by
  induction h with
  | done => simp [following]
  | trivia hline _ ih =>
      rw [ih, following]
      simp only [List.append_assoc]
  | block hbefore hblock _ ih =>
      rw [List.map_cons, List.flatten_cons, List.append_assoc, ih, following_append (Text.splitAt_ne_nil _ _),
        following_splitAt, PrismaBlock.text, hbefore]
      simp only [List.append_assoc, List.nil_append]

theorem following_nil (lines : List Text) : following [] lines = Text.joinWith [lineFeed] lines := by
  cases lines with
  | nil => rfl
  | cons line lines => exact following_eq (List.cons_ne_nil _ _)

/-! ## The same block -/

/-- The same block but for what stands before it and the white space around it. -/
structure SameBlock (block other : PrismaBlock) : Prop where
  type_eq : other.type = block.type
  name_eq : other.name = block.name
  content_eq : other.content.trim = block.content.trim
  bodies : ∃ header header' body tail tail', IsBlock block.type block.name header body tail block.content ∧
    IsBlock other.type other.name header' body tail' other.content

theorem SameBlock.of_before (hb : IsPrismaBlock b) (before : Text) : SameBlock b { b with before := before } := by
  obtain ⟨header, body, tail, h⟩ := hb
  exact ⟨rfl, rfl, rfl, header, header, body, tail, tail, h, h⟩

theorem SameBlock.isPrismaBlock {other : PrismaBlock} (h : SameBlock b other) : IsPrismaBlock other := by
  obtain ⟨-, -, -, -, header', body, -, tail', -, h⟩ := h
  exact ⟨header', body, tail', h⟩

theorem SameBlock.key {other : PrismaBlock} (h : SameBlock b other) : other.key = b.key := by
  rw [PrismaBlock.key, PrismaBlock.key, h.type_eq, h.name_eq]

theorem SameBlock.trans {other third : PrismaBlock} (h : SameBlock b other) (h' : SameBlock other third) :
    SameBlock b third := by
  obtain ⟨htype, hname, hcontent, header, header₁, body, tail, tail₁, hb, hother⟩ := h
  obtain ⟨htype', hname', hcontent', header₂, header₃, body', tail₂, tail₃, hother', hthird⟩ := h'
  have hbody : body' = body := by
    have hlines := Except.ok.inj (hother.bodyLines.symm.trans hother'.bodyLines)
    rw [← Text.joinWith_splitAt lineFeed body, ← Text.joinWith_splitAt lineFeed body', hlines]
  rw [hbody] at hthird
  exact ⟨htype'.trans htype, hname'.trans hname, hcontent'.trans hcontent, header, header₃, body, tail, tail₃, hb, hthird⟩

theorem SameBlock.bodyLines {other : PrismaBlock} (h : SameBlock b other) : bodyLines other.content = bodyLines b.content := by
  obtain ⟨-, -, -, header, header', body, tail, tail', hb, hother⟩ := h
  rw [hother.bodyLines, hb.bodyLines]

theorem sameBlock_trimEnd (hb : IsPrismaBlock b) : SameBlock b { b with content := Text.trimEnd b.content } := by
  obtain ⟨header, body, tail, h⟩ := hb
  exact ⟨rfl, rfl, Text.trim_trimEnd _, header, header, body, tail, _, h, h.trimEnd⟩

theorem sameBlock_trimStart (hb : IsPrismaBlock b) : SameBlock b { b with content := Text.trimStart b.content } := by
  obtain ⟨header, body, tail, h⟩ := hb
  exact ⟨rfl, rfl, Text.trim_trimStart _, header, _, body, tail, tail, h, h.trimStart⟩

/-! ## White space at the end of a document -/

theorem IsTrivia.trimEnd (h : IsTrivia line) : IsTrivia (Text.trimEnd line) :=
  ⟨by rw [Text.trim_trimEnd]; exact h.comment, fun hmem => h.noFeed (Text.mem_of_mem_trimEnd hmem)⟩

theorem IsTrivia.trimStart (h : IsTrivia line) : IsTrivia (Text.trimStart line) :=
  ⟨by rw [Text.trim_trimStart]; exact h.comment, fun hmem => h.noFeed (Text.mem_of_mem_trimStart hmem)⟩

theorem isSpace_lineFeed : Text.IsSpace [lineFeed] := by
  intro c hc
  rw [List.mem_singleton.mp hc]
  decide

theorem isTrivia_nil : IsTrivia [] := ⟨.inl rfl, List.not_mem_nil⟩

/-- Nothing but white space holds no block. -/
theorem Laid.blocks_of_isSpace (h : Laid separator gap bs trailing lines) (hspace : Text.IsSpace (following separator lines)) :
    bs = [] := by
  induction h with
  | done => rfl
  | trivia hline _ ih =>
      rw [following] at hspace
      exact ih fun c hc => hspace c (List.mem_append_right _ (List.mem_append_right _ hc))
  | block hbefore hblock _ ih =>
      obtain ⟨header, body, tail, hblock⟩ := hblock
      rw [following_append (Text.splitAt_ne_nil _ _), following_splitAt] at hspace
      exact absurd (fun c hc => hspace c (List.mem_append_left _ (List.mem_append_right _ hc))) hblock.not_isSpace

/-- The end of a document can be trimmed. -/
theorem Laid.trimEnd (h : Laid separator gap bs trailing lines) (hspace : ¬Text.IsSpace (following separator lines))
    (hseparator : Text.IsSpace separator) : ∃ bs' trailing' lines', Laid separator gap bs' trailing' lines' ∧
      List.Forall₂ SameBlock bs bs' ∧ lines' ≠ [] ∧
        following separator lines' = Text.trimEnd (following separator lines) := by
  induction h with
  | done => exact absurd Text.IsSpace.nil hspace
  | @trivia separator gap trailing line bs lines hline hlaid ih =>
      rw [following] at hspace ⊢
      by_cases hrest : Text.IsSpace (following [lineFeed] lines)
      · obtain rfl := hlaid.blocks_of_isSpace hrest
        have hnot : ¬Text.IsSpace line := fun h => hspace (hseparator.append (h.append hrest))
        refine ⟨[], _, [Text.trimEnd line], .trivia hline.trimEnd .done, .nil, List.cons_ne_nil _ _, ?_⟩
        rw [← List.append_assoc, Text.trimEnd_append hrest, Text.trimEnd_append_of_not hnot, following, following,
          List.append_nil]
      · obtain ⟨bs', trailing', lines', hlaid', hsame, hne, htext⟩ := ih hrest isSpace_lineFeed
        refine ⟨bs', trailing', line :: lines', .trivia hline hlaid', hsame, List.cons_ne_nil _ _, ?_⟩
        rw [← List.append_assoc, Text.trimEnd_append_of_not hrest, following, htext, List.append_assoc]
  | @block separator gap trailing b bs lines hbefore hblock hlaid ih =>
      rw [following_append (Text.splitAt_ne_nil _ _), following_splitAt] at hspace ⊢
      by_cases hrest : Text.IsSpace (following [lineFeed] lines)
      · obtain rfl := hlaid.blocks_of_isSpace hrest
        have hnot : ¬Text.IsSpace b.content := fun h => hspace ((hseparator.append h).append hrest)
        have hsame := sameBlock_trimEnd hblock
        have hlaid' := @Laid.block separator gap [] { b with content := Text.trimEnd b.content } [] [] hbefore
          hsame.isPrismaBlock .done
        rw [List.append_nil] at hlaid'
        refine ⟨_, _, _, hlaid', .cons hsame .nil, Text.splitAt_ne_nil _ _, ?_⟩
        rw [following_splitAt, Text.trimEnd_append hrest, Text.trimEnd_append_of_not hnot]
      · obtain ⟨bs', trailing', lines', hlaid', hsame, hne, htext⟩ := ih hrest isSpace_lineFeed
        refine ⟨b :: bs', trailing', _, .block hbefore hblock hlaid', .cons (.of_before hblock b.before) hsame,
          List.append_ne_nil_of_right_ne_nil _ hne, ?_⟩
        rw [following_append (Text.splitAt_ne_nil _ _), following_splitAt, Text.trimEnd_append_of_not hrest, htext]

/-! ## Single blocks and what stands before them -/

/-- The text of the block is white space, lines that may stand before a block, and the block. -/
def IsSegment (block : PrismaBlock) : Prop :=
  IsPrismaBlock block ∧ ∃ space lines, Text.IsSpace space ∧ (∀ line ∈ lines, IsTrivia line) ∧
    block.text = space ++ Text.joinWith [lineFeed] (lines ++ Text.splitAt lineFeed block.content)

/-- A gap, so far, and the separator behind it. -/
def IsGap (gap separator : Text) : Prop :=
  ∃ space lines, Text.IsSpace space ∧ (∀ line ∈ lines, IsTrivia line) ∧ ∀ rest, rest ≠ [] →
    gap ++ (separator ++ Text.joinWith [lineFeed] rest) = space ++ Text.joinWith [lineFeed] (lines ++ rest)

theorem isGap_nil (hseparator : Text.IsSpace separator) : IsGap [] separator :=
  ⟨separator, [], hseparator, List.forall_mem_nil _, fun _ _ => rfl⟩

theorem IsGap.snoc (h : IsGap gap separator) (hline : IsTrivia line) : IsGap (gap ++ separator ++ line) [lineFeed] := by
  obtain ⟨space, lines, hspace, hlines, htext⟩ := h
  refine ⟨space, lines ++ [line], hspace, List.forall_mem_append.mpr ⟨hlines, List.forall_mem_singleton.mpr hline⟩,
    fun rest hrest => ?_⟩
  obtain ⟨next, rest, rfl⟩ := List.exists_cons_of_ne_nil hrest
  rw [List.append_assoc, List.append_assoc, ← Text.joinWith_cons_cons, htext _ (List.cons_ne_nil _ _), List.append_assoc]
  rfl

theorem Laid.segments (h : Laid separator gap bs trailing lines) (hgap : IsGap gap separator) :
    ∀ block ∈ bs, IsSegment block := by
  induction h with
  | done => exact List.forall_mem_nil _
  | trivia hline _ ih => exact ih (hgap.snoc hline)
  | block hbefore hblock _ ih =>
      refine List.forall_mem_cons.mpr ⟨⟨hblock, ?_⟩, ih (isGap_nil isSpace_lineFeed)⟩
      obtain ⟨space, lines, hspace, hlines, htext⟩ := hgap
      refine ⟨space, lines, hspace, hlines, ?_⟩
      rw [← htext _ (Text.splitAt_ne_nil _ _), Text.joinWith_splitAt, PrismaBlock.text, hbefore, List.append_assoc]

theorem isSpace_joinWith_of_nil (hlines : ∀ line ∈ lines, IsTrivia line) (hb : IsPrismaBlock b) :
    ¬Text.IsSpace (Text.joinWith [lineFeed] (lines ++ Text.splitAt lineFeed b.content)) := by
  obtain ⟨header, body, tail, hb⟩ := hb
  intro hspace
  refine hb.not_isSpace fun c hc => hspace c ?_
  cases lines with
  | nil => rwa [List.nil_append, Text.joinWith_splitAt]
  | cons line lines =>
      rw [Text.joinWith_append (List.cons_ne_nil _ _) (Text.splitAt_ne_nil _ _), Text.joinWith_splitAt]
      exact List.mem_append_right _ (List.mem_append_right _ hc)

theorem trimEnd_segment (hb : IsPrismaBlock b) (lines : List Text) :
    Text.trimEnd (Text.joinWith [lineFeed] (lines ++ Text.splitAt lineFeed b.content)) =
      Text.joinWith [lineFeed] (lines ++ Text.splitAt lineFeed (Text.trimEnd b.content)) := by
  obtain ⟨header, body, tail, hb⟩ := hb
  cases lines with
  | nil => rw [List.nil_append, List.nil_append, Text.joinWith_splitAt, Text.joinWith_splitAt]
  | cons line lines =>
      rw [Text.joinWith_append (List.cons_ne_nil _ _) (Text.splitAt_ne_nil _ _),
        Text.joinWith_append (List.cons_ne_nil _ _) (Text.splitAt_ne_nil _ _), Text.joinWith_splitAt,
        Text.joinWith_splitAt, ← List.append_assoc, ← List.append_assoc, Text.trimEnd_append_of_not hb.not_isSpace]

theorem trimStart_segment (hb : IsPrismaBlock b) (hlines : ∀ line ∈ lines, IsTrivia line) :
    ∃ lines' b', (∀ line ∈ lines', IsTrivia line) ∧ SameBlock b b' ∧
      Text.trimStart (Text.joinWith [lineFeed] (lines ++ Text.splitAt lineFeed b.content)) =
        Text.joinWith [lineFeed] (lines' ++ Text.splitAt lineFeed b'.content) := by
  induction lines with
  | nil =>
      refine ⟨[], _, List.forall_mem_nil _, sameBlock_trimStart hb, ?_⟩
      rw [List.nil_append, List.nil_append, Text.joinWith_splitAt, Text.joinWith_splitAt]
  | cons line lines ih =>
      obtain ⟨hline, hlines⟩ := List.forall_mem_cons.mp hlines
      obtain ⟨next, rest, hcons⟩ := List.exists_cons_of_ne_nil
        (List.append_ne_nil_of_right_ne_nil lines (Text.splitAt_ne_nil lineFeed b.content))
      by_cases hspace : Text.IsSpace line
      · obtain ⟨lines', b', hlines', hsame, htext⟩ := ih hlines
        refine ⟨lines', b', hlines', hsame, ?_⟩
        rw [List.cons_append, hcons, Text.joinWith_cons_cons, Text.trimStart_append hspace,
          Text.trimStart_append isSpace_lineFeed, ← hcons, htext]
      · refine ⟨Text.trimStart line :: lines, b, List.forall_mem_cons.mpr ⟨hline.trimStart, hlines⟩, .of_before hb b.before, ?_⟩
        rw [List.cons_append, List.cons_append, hcons, Text.joinWith_cons_cons, Text.joinWith_cons_cons,
          Text.trimStart_append_of_not hspace]

/-- A block and what stands before it, trimmed. -/
theorem IsSegment.trim (h : IsSegment b) : ∃ lines b', (∀ line ∈ lines, IsTrivia line) ∧ SameBlock b b' ∧
    b.text.trim = Text.joinWith [lineFeed] (lines ++ Text.splitAt lineFeed b'.content) := by
  obtain ⟨hb, space, lines, hspace, hlines, htext⟩ := h
  obtain ⟨lines', b', hlines', hsame, hstart⟩ := trimStart_segment hb hlines
  refine ⟨lines', _, hlines', hsame.trans (sameBlock_trimEnd hsame.isPrismaBlock), ?_⟩
  rw [htext, Text.trim_append_left hspace, Text.trim_eq, hstart, trimEnd_segment hsame.isPrismaBlock]

/-! ## Documents one after the other -/

theorem Laid.append {separator' trailing' : Text} {others : List PrismaBlock} {lines' : List Text}
    (h : Laid separator gap bs trailing lines) (h' : Laid separator' trailing others trailing' lines')
    (hseparator : separator' = if lines = [] then separator else [lineFeed]) :
    Laid separator gap (bs ++ others) trailing' (lines ++ lines') := by
  induction h with
  | done =>
      rw [if_pos rfl] at hseparator
      rwa [← hseparator]
  | @trivia separator gap trailing line bs lines hline _ ih =>
      rw [if_neg (List.cons_ne_nil _ _)] at hseparator
      exact .trivia hline (ih h' (by rw [hseparator]; split <;> rfl))
  | @block separator gap trailing b bs lines hbefore hblock _ ih =>
      rw [if_neg (List.append_ne_nil_of_left_ne_nil (Text.splitAt_ne_nil _ _) _)] at hseparator
      rw [List.append_assoc]
      exact .block hbefore hblock (ih h' (by rw [hseparator]; split <;> rfl))

/-- A block behind lines that may stand before it. -/
theorem laid_segment (hb : IsPrismaBlock b) (hlines : ∀ line ∈ lines, IsTrivia line) (separator gap : Text) :
    ∃ before, Laid separator gap [{ b with before := before }] [] (lines ++ Text.splitAt lineFeed b.content) := by
  induction lines generalizing separator gap with
  | nil =>
      refine ⟨gap ++ separator, ?_⟩
      have h := @Laid.block separator gap [] { b with before := gap ++ separator } [] [] rfl hb .done
      rwa [List.append_nil] at h
  | cons line lines ih =>
      obtain ⟨hline, hlines⟩ := List.forall_mem_cons.mp hlines
      obtain ⟨before, h⟩ := ih hlines [lineFeed] (gap ++ separator ++ line)
      exact ⟨before, .trivia hline h⟩

/-- What stands at the end of a document once more blocks have been appended to it. -/
theorem laid_additions (hlaid : Laid [] [] bs trailing lines) (hne : lines ≠ []) (hblocks : ∀ b ∈ blocks, IsSegment b) :
    ∃ bs' trailing' lines', Laid [] [] (bs ++ bs') trailing' lines' ∧ lines' ≠ [] ∧ List.Forall₂ SameBlock blocks bs' ∧
      Text.joinWith [lineFeed, lineFeed] (Text.joinWith [lineFeed] lines :: blocks.map fun b => b.text.trim) =
        Text.joinWith [lineFeed] lines' := by
  induction blocks generalizing bs trailing lines with
  | nil => exact ⟨[], trailing, lines, by rwa [List.append_nil], hne, .nil, rfl⟩
  | cons b blocks ih =>
      obtain ⟨hb, hblocks⟩ := List.forall_mem_cons.mp hblocks
      obtain ⟨pre, b', hpre, hsame, htrim⟩ := hb.trim
      -- an empty line, and the block with what stands before it
      obtain ⟨before, hsegment⟩ := laid_segment hsame.isPrismaBlock
        (List.forall_mem_cons.mpr ⟨isTrivia_nil, hpre⟩) [lineFeed] trailing
      have hboth := hlaid.append hsegment (if_neg hne).symm
      have hlines : lines ++ ([] :: pre ++ Text.splitAt lineFeed b'.content) ≠ [] := List.append_ne_nil_of_left_ne_nil hne _
      obtain ⟨bs', trailing', lines', hlaid', hne', hsame', htext⟩ := ih hboth hlines hblocks
      refine ⟨{ b' with before := before } :: bs', trailing', lines', ?_, hne',
        .cons (hsame.trans (.of_before hsame.isPrismaBlock before)) hsame', ?_⟩
      · rwa [List.append_assoc] at hlaid'
      · have hpiece : Text.joinWith [lineFeed] (lines ++ ([] :: pre ++ Text.splitAt lineFeed b'.content)) =
            Text.joinWith [lineFeed] lines ++ ([lineFeed, lineFeed] ++ b.text.trim) := by
          obtain ⟨next, rest, hcons⟩ := List.exists_cons_of_ne_nil
            (List.append_ne_nil_of_right_ne_nil pre (Text.splitAt_ne_nil lineFeed b'.content))
          have hlines : [] :: pre ++ Text.splitAt lineFeed b'.content = [] :: next :: rest := by rw [List.cons_append, hcons]
          rw [hlines, Text.joinWith_append hne (List.cons_ne_nil _ _), htrim, hcons, Text.joinWith_cons_cons]
          rfl
        rw [← htext, hpiece, List.map_cons, Text.joinWith_cons_cons]
        cases blocks with
        | nil => simp only [List.map_nil, Text.joinWith]
        | cons c blocks =>
            rw [List.map_cons, Text.joinWith_cons_cons, Text.joinWith_cons_cons]
            simp only [List.append_assoc]

/-- The line end behind the last line. -/
theorem Laid.endLine (h : Laid [] [] bs trailing lines) (hne : lines ≠ []) :
    Laid [] [] bs (trailing ++ [lineFeed] ++ []) (lines ++ [[]]) := by
  have hend := h.append (.trivia isTrivia_nil .done) (if_neg hne).symm
  rwa [List.append_nil] at hend

theorem Laid.isPrismaBlock (h : Laid separator gap bs trailing lines) : ∀ b ∈ bs, IsPrismaBlock b := by
  induction h with
  | done => exact List.forall_mem_nil _
  | trivia _ _ ih => exact ih
  | block _ hblock _ ih => exact List.forall_mem_cons.mpr ⟨hblock, ih⟩

/-- The text of a merge is laid out in the blocks that were merged and the ones that were added. -/
theorem laid_renderMerge (hlaid : Laid [] [] bs trailing lines) (hne : lines ≠ []) (hblocks : ∀ b ∈ blocks, IsSegment b) :
    ∃ bs' others trailing' lines', Laid [] [] (bs' ++ others) trailing' lines' ∧ lines' ≠ [] ∧
      renderMerge ⟨bs, blocks⟩ trailing = Text.joinWith [lineFeed] lines' ∧ List.Forall₂ SameBlock bs bs' ∧
        List.Forall₂ SameBlock blocks others := by
  have hsame : List.Forall₂ SameBlock bs bs :=
    List.forall₂_same.mpr fun b hb => .of_before (hlaid.isPrismaBlock b hb) b.before
  have houtput : (bs.map PrismaBlock.text).flatten ++ trailing = following [] lines := hlaid.text
  unfold renderMerge
  dsimp only
  rw [houtput]
  cases blocks with
  | nil =>
      refine ⟨bs, [], trailing, lines, by rwa [List.append_nil], hne, ?_, hsame, .nil⟩
      rw [if_pos rfl, following_nil]
  | cons b blocks =>
      rw [if_neg (List.cons_ne_nil _ _)]
      by_cases hspace : Text.IsSpace (following [] lines)
      · obtain rfl := hlaid.blocks_of_isSpace hspace
        rw [Text.trimEnd_of_isSpace hspace, if_pos rfl, List.nil_append, List.map_cons]
        obtain ⟨hb, hblocks⟩ := List.forall_mem_cons.mp hblocks
        obtain ⟨pre, b', hpre, hb', htrim⟩ := hb.trim
        obtain ⟨before, hsegment⟩ := laid_segment hb'.isPrismaBlock hpre [] []
        obtain ⟨bs', trailing', lines', hlaid', hne', hsame', htext⟩ := laid_additions hsegment
          (List.append_ne_nil_of_right_ne_nil _ (Text.splitAt_ne_nil _ _)) hblocks
        refine ⟨[], { b' with before := before } :: bs', _, lines' ++ [[]], hlaid'.endLine hne',
          List.append_ne_nil_of_left_ne_nil hne' _, ?_, .nil,
          .cons (hb'.trans (.of_before hb'.isPrismaBlock before)) hsame'⟩
        rw [htrim, htext, Text.joinWith_append hne' (List.cons_ne_nil _ _)]
        rfl
      · obtain ⟨bs₁, trailing₁, lines₁, hlaid₁, hsame₁, hne₁, htext₁⟩ := hlaid.trimEnd hspace Text.IsSpace.nil
        obtain ⟨bs', trailing', lines', hlaid', hne', hsame', htext⟩ := laid_additions hlaid₁ hne₁ hblocks
        rw [if_neg fun h => hspace (Text.trimEnd_eq_nil.mp h), List.singleton_append, ← htext₁, following_nil]
        refine ⟨bs₁, bs', _, lines' ++ [[]], hlaid'.endLine hne',
          List.append_ne_nil_of_left_ne_nil hne' _, ?_, hsame₁, hsame'⟩
        rw [htext, Text.joinWith_append hne' (List.cons_ne_nil _ _)]
        rfl

end SecPlatform.Compiler.Templates
