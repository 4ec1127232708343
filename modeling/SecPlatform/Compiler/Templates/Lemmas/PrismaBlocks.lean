import SecPlatform.Compiler.Templates.Lemmas.PrismaScan

/-!
# The blocks of a schema

A block is a header, a body whose lines keep the scan inside the block, and the brace that closes it. The bounds of
the body are found from the text of the block alone, wherever the block stands.
-/

namespace SecPlatform.Compiler.Templates

open Contracts

variable {type name header body tail line content : Text} {lines init : List Text} {d d' d'' offset : Nat}

/-! ## Lines of a body -/

theorem Nested.append {others : List Text} (h : Nested d lines d') (hothers : Nested d' others d'') :
    Nested d (lines ++ others) d'' := by
  induction h with
  | nil => exact hothers
  | cons hscan hpos _ ih => exact .cons hscan hpos (ih hothers)

theorem Nested.pos (h : Nested d lines d') (hd : 0 < d) : 0 < d' := by
  induction h with
  | nil => exact hd
  | cons _ hpos _ ih => exact ih hpos

theorem nested_append {others : List Text} : Nested d (lines ++ others) d'' ↔
    ∃ d', Nested d lines d' ∧ Nested d' others d'' := by
  constructor
  · intro h
    induction lines generalizing d with
    | nil => exact ⟨d, .nil d, h⟩
    | cons line lines ih =>
        cases h with
        | cons hscan hpos hlines =>
            obtain ⟨d', hfirst, hrest⟩ := ih hlines
            exact ⟨d', .cons hscan hpos hfirst, hrest⟩
  · rintro ⟨d', hlines, hothers⟩
    exact hlines.append hothers

/-- Empty lines do not matter. -/
theorem nested_space (hd : 0 < d) (hlines : ∀ line ∈ lines, Text.IsSpace line) : Nested d lines d := by
  induction lines with
  | nil => exact .nil d
  | cons line lines ih =>
      obtain ⟨hline, hlines⟩ := List.forall_mem_cons.mp hlines
      exact .cons (scanPrismaLine_space hline d) hd (ih hlines)

theorem nested_space_iff (hlines : ∀ line ∈ lines, Text.IsSpace line) : Nested d lines d' → d' = d := by
  intro h
  induction h with
  | nil => rfl
  | @cons d d' d'' line lines hscan _ _ ih =>
      obtain ⟨hline, hlines⟩ := List.forall_mem_cons.mp hlines
      rw [scanPrismaLine_space hline] at hscan
      rw [ih hlines]
      exact (congrArg LineScan.depth (Except.ok.inj hscan)).symm

/-- The lines from inside a block to the one that closes it. -/
inductive Closes : Nat → List Text → Prop
  | last {d : Nat} {line : Text} {r : LineScan} (hscan : scanPrismaLine line d = .ok r) (hdepth : r.depth = 0) :
      Closes d [line]
  | cons {d : Nat} {line : Text} {lines : List Text} {r : LineScan} (hscan : scanPrismaLine line d = .ok r)
      (hpos : 0 < r.depth) (hlines : Closes r.depth lines) : Closes d (line :: lines)

/-- The closing line ends in the brace and what trails it. -/
theorem closes_iff (hd : 0 < d) : Closes d lines ↔ ∃ init last tail d', lines = init ++ [last ++ unit '\x7d' :: tail] ∧
    Nested d init d' ∧ Through last (.plain d' none) (.plain 1 none) ∧ Trails tail := by
  constructor
  · intro h
    induction h with
    | @last d line r hscan hdepth =>
        rcases scanPrismaLine_inside hd hscan with ⟨hpos, -⟩ | ⟨a, b, rfl, hb, hthrough, -⟩
        · exact absurd hpos (hdepth ▸ Nat.lt_irrefl 0)
        · exact ⟨[], a, b, d, rfl, .nil d, hthrough, hb⟩
    | @cons d line lines r hscan hpos _ ih =>
        rcases scanPrismaLine_inside hd hscan with ⟨-, hr⟩ | ⟨a, b, -, -, -, rfl⟩
        · obtain ⟨init, last, tail, d', rfl, hnested, hthrough, htail⟩ := ih hpos
          exact ⟨line :: init, last, tail, d', rfl, .cons (hr ▸ hscan) hpos hnested, hthrough, htail⟩
        · exact absurd hpos (Nat.lt_irrefl 0)
  · rintro ⟨init, last, tail, d', rfl, hnested, hthrough, htail⟩
    induction hnested with
    | nil d => exact .last (hthrough.closing htail) rfl
    | cons hscan hpos _ ih => exact .cons hscan hpos (ih hpos hthrough)

/-! ## Blocks -/

/-- The text between the braces of a block. -/
inductive IsBody (body : Text) : Prop
  | mk {init : List Text} {last : Text} {d : Nat} (hlines : Text.splitAt lineFeed body = init ++ [last])
      (hinit : Nested 1 init d) (hlast : Through last (.plain d none) (.plain 1 none))

/-- A block of a schema: a header, a body, the closing brace and what trails it on its line. -/
structure IsBlock (type name header body tail content : Text) : Prop where
  content_eq : content = header ++ (body ++ unit '\x7d' :: tail)
  isHeader : IsHeader type name header
  header_line : lineFeed ∉ header
  isBody : IsBody body
  trails : Trails tail
  tail_line : lineFeed ∉ tail

theorem IsHeader.length_pos (h : IsHeader type name header) : 0 < header.length := by
  obtain ⟨init, rfl, -⟩ := h.split
  simp

theorem bodyBoundsFrom_nested {opening : Nat} {last : Text} (hnested : Nested d init d')
    (hlast : Through last (.plain d' none) (.plain 1 none)) (htail : Trails tail) :
    bodyBoundsFrom (init ++ [last ++ unit '\x7d' :: tail]) d offset (some opening) =
      .ok (opening, offset + (Text.joinWith [lineFeed] (init ++ [last])).length) := by
  induction hnested generalizing offset with
  | nil d =>
      rw [List.nil_append, bodyBoundsFrom, hlast.closing htail, ok_bind]
      rfl
  | @cons d d' d'' line lines hscan hpos _ ih =>
      rw [List.cons_append, bodyBoundsFrom, hscan, ok_bind]
      refine (ih hlast).trans ?_
      obtain ⟨next, rest, hcons⟩ := List.exists_cons_of_ne_nil (List.append_ne_nil_of_right_ne_nil lines
        (List.cons_ne_nil last []))
      rw [List.cons_append, hcons, Text.joinWith_cons_cons, List.length_append, List.length_append,
        List.length_singleton, ← Nat.add_assoc, ← Nat.add_assoc]

/-- The lines of a block: the first begins with the header. -/
theorem IsBlock.split (h : IsBlock type name header body tail content) : ∃ init last d first rest,
    Text.splitAt lineFeed body = init ++ [last] ∧ Nested 1 init d ∧ Through last (.plain d none) (.plain 1 none) ∧
      init ++ [last ++ unit '\x7d' :: tail] = first :: rest ∧ Text.splitAt lineFeed content = (header ++ first) :: rest := by
  obtain ⟨rfl, hheader, hheaderLine, ⟨hlines, hinit, hlast⟩, htrails, htailLine⟩ := h
  rename_i init last d
  have hclosing : lineFeed ∉ unit '\x7d' :: tail := by
    rw [List.mem_cons, not_or]
    exact ⟨by decide, htailLine⟩
  have hsplit := Text.splitAt_append_of_notMem_right hclosing hlines
  obtain ⟨first, rest, hcons⟩ := List.exists_cons_of_ne_nil
    (List.append_ne_nil_of_right_ne_nil init (List.cons_ne_nil (last ++ unit '\x7d' :: tail) []))
  exact ⟨init, last, d, first, rest, hlines, hinit, hlast, hcons,
    Text.splitAt_append_of_notMem hheaderLine (hsplit.trans hcons)⟩

theorem IsBlock.bodyBounds (h : IsBlock type name header body tail content) :
    bodyBounds content = .ok (header.length - 1, header.length + body.length) := by
  obtain ⟨init, last, d, first, rest, hlines, hinit, hlast, hcons, hsplit⟩ := h.split
  have hjoin := Text.joinWith_splitAt lineFeed body
  rw [hlines] at hjoin
  unfold Templates.bodyBounds
  rw [hsplit, bodyBoundsFrom]
  cases hinit with
  | nil =>
      obtain ⟨rfl, rfl⟩ := List.cons.inj hcons
      rw [(scanPrismaLine_header h.isHeader).mpr ⟨_, hlast.closing h.trails, rfl⟩, ok_bind]
      have hbody : body = last := hjoin.symm
      rw [hbody]
      simp only [LineScan.behind, Option.map_some, Nat.zero_add]
      rfl
  | @cons _ d' _ line lines hscan hpos hnested =>
      obtain ⟨rfl, rfl⟩ := List.cons.inj hcons
      rw [(scanPrismaLine_header h.isHeader).mpr ⟨_, hscan, rfl⟩, ok_bind]
      refine (bodyBoundsFrom_nested hnested hlast h.trails).trans ?_
      obtain ⟨next, rest, hrest⟩ := List.exists_cons_of_ne_nil (List.append_ne_nil_of_right_ne_nil lines
        (List.cons_ne_nil last []))
      rw [List.cons_append, hrest, Text.joinWith_cons_cons] at hjoin
      rw [hrest, ← hjoin]
      simp only [List.length_append, List.length_singleton, Nat.zero_add, Nat.add_assoc]

/-- The lines of the body, and the header and the closing line around it. -/
theorem IsBlock.bodyLines (h : IsBlock type name header body tail content) :
    bodyLines content = .ok (Text.splitAt lineFeed body) := by
  unfold Templates.bodyLines
  rw [h.bodyBounds, ok_bind]
  dsimp only
  have hpos := h.isHeader.length_pos
  have htake : content.take (header.length + body.length) = header ++ body := by
    rw [h.content_eq, ← List.append_assoc, ← List.length_append, List.take_left]
  rw [htake, Nat.sub_add_cancel hpos, List.drop_left]
  rfl

theorem IsBlock.take_opening (h : IsBlock type name header body tail content) :
    content.take (header.length - 1 + 1) = header := by
  rw [Nat.sub_add_cancel h.isHeader.length_pos, h.content_eq, List.take_left]

theorem IsBlock.drop_closing (h : IsBlock type name header body tail content) :
    content.drop (header.length + body.length) = unit '\x7d' :: tail := by
  rw [h.content_eq, ← List.append_assoc, ← List.length_append, List.drop_left]

/-! ## Blocks and their lines -/

theorem isBlock_of_closes {first : Text} {rest : List Text} (hheader : IsHeader type name header)
    (hlines : ∀ line ∈ (header ++ first) :: rest, lineFeed ∉ line) (h : Closes 1 (first :: rest)) :
    ∃ body tail, IsBlock type name header body tail (Text.joinWith [lineFeed] ((header ++ first) :: rest)) := by
  obtain ⟨hfirst, hrest⟩ := List.forall_mem_cons.mp hlines
  rw [List.mem_append, not_or] at hfirst
  have hnone : ∀ line ∈ first :: rest, lineFeed ∉ line := List.forall_mem_cons.mpr ⟨hfirst.2, hrest⟩
  obtain ⟨init, last, tail, d, hsplit, hnested, hlast, htail⟩ := (closes_iff Nat.zero_lt_one).mp h
  rw [hsplit] at hnone
  have hclosing := hnone _ (List.mem_append_right _ (List.mem_singleton_self _))
  rw [List.mem_append, List.mem_cons, not_or, not_or] at hclosing
  have hbody : ∀ line ∈ init ++ [last], lineFeed ∉ line := by
    intro line hline
    rcases List.mem_append.mp hline with hline | hline
    · exact hnone line (List.mem_append_left _ hline)
    · rw [List.mem_singleton.mp hline]
      exact hclosing.1
  refine ⟨Text.joinWith [lineFeed] (init ++ [last]), tail, ?_, hheader, hfirst.1,
    .mk (Text.splitAt_joinWith (List.append_ne_nil_of_right_ne_nil _ (List.cons_ne_nil _ _)) hbody) hnested hlast, htail,
    hclosing.2.2⟩
  rw [Text.joinWith_append_head, hsplit]
  congr 1
  cases init with
  | nil => rfl
  | cons line init =>
      rw [Text.joinWith_append (List.cons_ne_nil _ _) (List.cons_ne_nil _ _),
        Text.joinWith_append (List.cons_ne_nil _ _) (List.cons_ne_nil _ _)]
      simp only [Text.joinWith, List.append_assoc]

theorem IsBlock.closes (h : IsBlock type name header body tail content) :
    ∃ first rest, Text.splitAt lineFeed content = (header ++ first) :: rest ∧ Closes 1 (first :: rest) := by
  obtain ⟨init, last, d, first, rest, -, hinit, hlast, hcons, hsplit⟩ := h.split
  exact ⟨first, rest, hsplit, (closes_iff Nat.zero_lt_one).mpr ⟨init, last, tail, d, hcons.symm, hinit, hlast, h.trails⟩⟩

/-! ## White space around a block -/

theorem not_isTrimSpace_brace : Text.isTrimSpace (unit '\x7d') = false := by decide

theorem trails_of_append {a b : Text} (hb : Text.IsSpace b) (h : Trails (a ++ b)) : Trails a := by
  induction a with
  | nil => rfl
  | cons c a ih =>
      rw [List.cons_append, Trails, Bool.or_eq_true, Bool.and_eq_true, Bool.and_eq_true] at h
      rw [Trails, Bool.or_eq_true, Bool.and_eq_true, Bool.and_eq_true]
      rcases h with ⟨hc, hhead⟩ | ⟨hc, hrest⟩
      · refine .inl ⟨hc, ?_⟩
        cases a with
        | nil =>
            cases b with
            | nil => exact hhead
            | cons d b =>
                have hd : d = unit '/' := by simpa using hhead
                exact absurd hd (ne_slash_of_isTrimSpace (hb d List.mem_cons_self))
        | cons d a => exact hhead
      · exact .inr ⟨hc, ih hrest⟩

theorem IsBlock.trimEnd (h : IsBlock type name header body tail content) :
    IsBlock type name header body (Text.trimEnd tail) (Text.trimEnd content) := by
  obtain ⟨space, hspace, htail⟩ := Text.exists_trimEnd tail
  refine ⟨?_, h.isHeader, h.header_line, h.isBody, trails_of_append hspace (htail ▸ h.trails), ?_⟩
  · rw [h.content_eq, ← List.append_assoc, Text.trimEnd_append_cons not_isTrimSpace_brace, List.append_assoc]
  · intro hmem
    exact h.tail_line (htail ▸ List.mem_append_left _ hmem)

theorem IsHeader.trimStart (h : IsHeader type name header) (b : Text) :
    Text.trimStart (header ++ b) = Text.trimStart header ++ b ∧ IsHeader type name (Text.trimStart header) := by
  cases h with
  | @mk indent gap space hindent htype hgap hne hname hspace =>
      have hunits := isNameUnit_of_blockType htype
      cases type with
      | nil => exact absurd htype (by decide)
      | cons c type =>
          have hc := not_isTrimSpace_of_isNameUnit (hunits c List.mem_cons_self)
          have hstart : ∀ u, Text.trimStart (indent ++ (c :: type ++ u)) = c :: type ++ u := fun u => by
            rw [Text.trimStart_append hindent]
            exact Text.trimStart_cons hc _
          refine ⟨?_, ?_⟩
          · rw [hstart, List.append_assoc, List.append_assoc, hstart, List.append_assoc]
          · rw [hstart]
            exact .mk Text.IsSpace.nil htype hgap hne hname hspace

theorem IsBlock.trimStart (h : IsBlock type name header body tail content) :
    IsBlock type name (Text.trimStart header) body tail (Text.trimStart content) := by
  obtain ⟨hstart, hheader⟩ := h.isHeader.trimStart (body ++ unit '\x7d' :: tail)
  refine ⟨by rw [h.content_eq, hstart], hheader, ?_, h.isBody, h.trails, h.tail_line⟩
  obtain ⟨space, -, hspace⟩ := Text.exists_trimStart header
  intro hmem
  exact h.header_line (hspace ▸ List.mem_append_right _ hmem)

theorem IsBlock.not_isSpace (h : IsBlock type name header body tail content) : ¬Text.IsSpace content := by
  intro hspace
  have hmem : unit '\x7d' ∈ content := by
    rw [h.content_eq]
    simp
  exact absurd (hspace _ hmem) (by decide)

end SecPlatform.Compiler.Templates
