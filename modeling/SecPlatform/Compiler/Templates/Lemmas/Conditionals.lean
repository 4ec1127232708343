import SecPlatform.Compiler.Templates.Template

/-!
# The scan of the directives

What one directive does to the scan, and what the scan makes of the text of a template that other text follows.
Conversely, a scan that ends well has read one template for the branch it is in and one for each branch around it.
-/

namespace SecPlatform.Compiler.Templates

open Contracts

variable {context : TemplateContext} {condition content before tail out : Text} {cursor : Nat} {state next : ConditionalScan}

theorem unbordered_marker : Text.Unbordered TEMPLATE_MARKER := by decide

theorem unbordered_ifEnd : Text.Unbordered TEMPLATE_IF_END := by decide

/-! ## Conditions -/

theorem conditionOperand_ok {key : Text} {b : Bool} :
    conditionOperand key context = .ok b ↔ context.get? key = some (.boolean b) := by
  unfold conditionOperand
  split
  · rename_i hnone
    simp [hnone, failWith]
  · rename_i value hvalue
    simp [hvalue]
  · rename_i value hnot hvalue
    rw [hvalue]
    refine ⟨nofun, fun h => ?_⟩
    cases h
    exact absurd rfl (hnot b)

theorem splitCondition_mark (key : Text) : splitCondition (unit '!' :: key) = (true, key) := by
  rw [splitCondition, if_pos rfl]

theorem splitCondition_key {key : Text} (h : isTemplateContextKey key) : splitCondition key = (false, key) := by
  cases key with
  | nil => rfl
  | cons c rest =>
      have hstart : isKeyStart c := (Bool.and_eq_true_iff.mp h).1
      refine if_neg ?_
      rintro rfl
      exact absurd hstart (by decide)

theorem conditionValue_ok {b : Bool} : conditionValue condition context = .ok b ↔ Selects context condition b := by
  unfold conditionValue
  constructor
  · intro h
    rcases condition with _ | ⟨c, rest⟩
    · obtain ⟨hkey, -⟩ := check_bind_eq_ok.mp h
      exact absurd (require_eq_ok.mp hkey) (by decide)
    · unfold splitCondition at h
      dsimp only at h
      split at h
      · rename_i hmark
        obtain ⟨hkey, h⟩ := check_bind_eq_ok.mp h
        obtain ⟨value, hvalue, h⟩ := bind_eq_ok.mp h
        cases h
        subst hmark
        exact .negated (require_eq_ok.mp hkey) (conditionOperand_ok.mp hvalue)
      · obtain ⟨hkey, h⟩ := check_bind_eq_ok.mp h
        obtain ⟨value, hvalue, h⟩ := bind_eq_ok.mp h
        cases h
        exact .key (require_eq_ok.mp hkey) (conditionOperand_ok.mp hvalue)
  · rintro (⟨hkey, hvalue⟩ | ⟨hkey, hvalue⟩)
    · rw [splitCondition_key hkey]
      dsimp only
      rw [require, if_pos hkey, ok_bind, conditionOperand_ok.mpr hvalue, ok_bind]
      rfl
    · rw [splitCondition_mark]
      dsimp only
      rw [require, if_pos hkey, ok_bind, conditionOperand_ok.mpr hvalue, ok_bind]
      rfl

/-! ## Single directives -/

/-- What a directive does to the scan, and the text behind it. -/
inductive Directive (context : TemplateContext) (state : ConditionalScan) : Text → ConditionalScan → Text → Prop
  | endif {rest parent parents} (hparents : state.parentActivity = parent :: parents) :
      Directive context state (TEMPLATE_ENDIF ++ rest) ⟨parents, parent, state.directiveCount + 1, state.output⟩ rest
  | opening {condition rest : Text} {selected} (hend : ¬TEMPLATE_IF_END <:+: condition)
      (hcondition : Selects context condition.trim selected)
      (hdepth : state.parentActivity.length + 1 ≤ TEMPLATE_MAX_NESTING_DEPTH) :
      Directive context state (TEMPLATE_IF_PREFIX ++ (condition ++ (TEMPLATE_IF_END ++ rest)))
        ⟨state.active :: state.parentActivity, state.active && selected, state.directiveCount + 1, state.output⟩ rest

theorem Directive.marker {directive rest : Text} (h : Directive context state directive next rest) :
    TEMPLATE_MARKER <+: directive := by
  cases h with
  | endif => exact List.IsPrefix.trans (by decide : TEMPLATE_MARKER <+: TEMPLATE_ENDIF) (List.prefix_append _ _)
  | opening => exact List.IsPrefix.trans (by decide : TEMPLATE_MARKER <+: TEMPLATE_IF_PREFIX) (List.prefix_append _ _)

/-- A directive takes a part of the text. -/
theorem Directive.split {directive rest : Text} (h : Directive context state directive next rest) :
    ∃ taken, directive = taken ++ rest ∧ 0 < taken.length := by
  cases h with
  | endif => exact ⟨TEMPLATE_ENDIF, rfl, by decide⟩
  | @opening condition =>
      refine ⟨TEMPLATE_IF_PREFIX ++ (condition ++ TEMPLATE_IF_END), by simp only [List.append_assoc], ?_⟩
      have hpos : 0 < TEMPLATE_IF_PREFIX.length := by decide
      rw [List.length_append]
      omega

theorem renderDirective_ok {marker : Nat} {directive : Text} {width : { width : Nat // 0 < width }} :
    renderDirective context marker state directive = .ok (next, width) ↔
      state.directiveCount + 1 ≤ TEMPLATE_MAX_DIRECTIVES ∧ ∃ rest, Directive context state directive next rest ∧
        directive.length = width.val + rest.length := by
  unfold renderDirective
  dsimp only
  rw [check_bind_eq_ok, require_eq_ok]
  refine and_congr_right fun _ => ?_
  constructor
  · intro h
    split at h
    · rename_i hendif
      obtain ⟨rest, rfl⟩ := hendif
      split at h
      · cases h
      · rename_i hparents
        cases h
        exact ⟨rest, .endif hparents, List.length_append⟩
    · split at h
      · cases h
      · rename_i hprefix
        obtain ⟨rest, rfl⟩ := not_not.mp hprefix
        rw [List.drop_left] at h
        split at h
        · cases h
        · rename_i condition behind hcut
          obtain ⟨rfl, hend⟩ := (Text.cut_eq_some unbordered_ifEnd).mp hcut
          obtain ⟨selected, hselected, h⟩ := bind_eq_ok.mp h
          obtain ⟨hdepth, h⟩ := check_bind_eq_ok.mp h
          cases h
          refine ⟨behind, .opening hend (conditionValue_ok.mp hselected) (require_eq_ok.mp hdepth), ?_⟩
          simp only [List.length_append]
          omega
  · rintro ⟨rest, hdirective, hlength⟩
    cases hdirective with
    | endif hparents =>
        rw [if_pos (List.prefix_append _ _), hparents]
        rw [List.length_append] at hlength
        have hwidth : width = ⟨TEMPLATE_ENDIF.length, by decide⟩ := Subtype.ext (Nat.add_right_cancel hlength).symm
        rw [hwidth]
    | @opening condition rest selected hend hcondition hdepth =>
        have hnot : ¬TEMPLATE_ENDIF <+: TEMPLATE_IF_PREFIX ++ (condition ++ (TEMPLATE_IF_END ++ rest)) := by
          intro h
          have hshort : TEMPLATE_ENDIF.take 6 <+: TEMPLATE_IF_PREFIX :=
            List.prefix_of_prefix_length_le ((List.take_prefix _ _).trans h) (List.prefix_append _ _) (by decide)
          exact absurd hshort (by decide)
        rw [if_neg hnot, if_neg (not_not.mpr (List.prefix_append _ _)), List.drop_left,
          Text.cut_append unbordered_ifEnd hend]
        dsimp only
        rw [conditionValue_ok.mpr hcondition, ok_bind, require,
          if_pos (show (state.active :: state.parentActivity).length ≤ TEMPLATE_MAX_NESTING_DEPTH from hdepth), ok_bind]
        simp only [List.length_append] at hlength
        have hwidth : width = ⟨TEMPLATE_IF_PREFIX.length + condition.length + TEMPLATE_IF_END.length,
            Nat.add_pos_right _ (by decide)⟩ :=
          Subtype.ext (by dsimp only; omega)
        rw [hwidth]
        rfl

/-! ## Steps of the scan -/

@[simp] theorem emit_nil (state : ConditionalScan) : state.emit [] = state := by
  unfold ConditionalScan.emit
  split
  · rw [List.append_nil]
  · rfl

@[simp] theorem emit_parentActivity (state : ConditionalScan) (text : Text) :
    (state.emit text).parentActivity = state.parentActivity := by
  unfold ConditionalScan.emit
  split <;> rfl

@[simp] theorem emit_active (state : ConditionalScan) (text : Text) : (state.emit text).active = state.active := by
  unfold ConditionalScan.emit
  split <;> rfl

@[simp] theorem emit_directiveCount (state : ConditionalScan) (text : Text) :
    (state.emit text).directiveCount = state.directiveCount := by
  unfold ConditionalScan.emit
  split <;> rfl

@[simp] theorem emit_output (state : ConditionalScan) (text : Text) :
    (state.emit text).output = state.output ++ if state.active then text else [] := by
  unfold ConditionalScan.emit
  split
  · rfl
  · rw [List.append_nil]

theorem emit_eq (state : ConditionalScan) (text : Text) : state.emit text =
    ⟨state.parentActivity, state.active, state.directiveCount, state.output ++ if state.active then text else []⟩ := by
  unfold ConditionalScan.emit
  split
  · rfl
  · rw [List.append_nil]

theorem finishConditionals_ok : finishConditionals state = .ok out ↔ state.parentActivity = [] ∧ out = state.output := by
  unfold finishConditionals
  rw [check_bind_eq_ok, require_eq_ok]
  simp [eq_comm]

theorem renderConditionalsFrom_none (hmarker : ¬TEMPLATE_MARKER <:+: content) :
    renderConditionalsFrom context cursor content state = finishConditionals (state.emit content) := by
  rw [renderConditionalsFrom.eq_def]
  split
  · rw [emit_nil]
  · rw [Text.cut_eq_none.mpr hmarker]

/-- The scan comes to the next marker. -/
theorem renderConditionalsFrom_marker (hmarker : ¬TEMPLATE_MARKER <:+: before) (behind : Text) :
    renderConditionalsFrom context cursor (before ++ (TEMPLATE_MARKER ++ behind)) state =
      renderDirective context (cursor + before.length) (state.emit before) (TEMPLATE_MARKER ++ behind) >>= fun step =>
        renderConditionalsFrom context (cursor + before.length + step.2.val)
          ((TEMPLATE_MARKER ++ behind).drop step.2.val) step.1 := by
  rw [renderConditionalsFrom.eq_def]
  split
  · rename_i hnil
    exact absurd (List.append_eq_nil_iff.mp (List.append_eq_nil_iff.mp hnil).2).1 (by decide)
  · rename_i c cs hcons
    rw [← hcons, Text.cut_append unbordered_marker hmarker]
    dsimp only
    rw [List.drop_left]
    simp only [← List.drop_drop, List.drop_left]

/-- The scan goes on behind a directive that it takes. -/
theorem renderConditionalsFrom_directive {rest : Text} (hmarker : ¬TEMPLATE_MARKER <:+: before)
    (hdirective : Directive context (state.emit before) tail next rest)
    (hcount : state.directiveCount + 1 ≤ TEMPLATE_MAX_DIRECTIVES) :
    ∃ cursor', renderConditionalsFrom context cursor (before ++ tail) state =
      renderConditionalsFrom context cursor' rest next := by
  obtain ⟨taken, hsplit, hwidth⟩ := hdirective.split
  obtain ⟨behind, rfl⟩ := hdirective.marker
  have hrender : renderDirective context (cursor + before.length) (state.emit before) (TEMPLATE_MARKER ++ behind) =
      .ok (next, ⟨taken.length, hwidth⟩) :=
    renderDirective_ok.mpr ⟨by simpa using hcount, rest, hdirective, by rw [hsplit, List.length_append]⟩
  refine ⟨cursor + before.length + taken.length, ?_⟩
  rw [renderConditionalsFrom_marker hmarker, hrender, ok_bind]
  dsimp only
  rw [hsplit, List.drop_left]

/-- Text before the next directive is dealt with first. -/
theorem renderConditionalsFrom_plain (hmarker : ¬TEMPLATE_MARKER <:+: before)
    (htail : tail = [] ∨ TEMPLATE_MARKER <+: tail) :
    renderConditionalsFrom context cursor (before ++ tail) state =
      renderConditionalsFrom context (cursor + before.length) tail (state.emit before) := by
  rcases htail with rfl | ⟨behind, rfl⟩
  · rw [List.append_nil, renderConditionalsFrom_none hmarker, renderConditionalsFrom]
  · refine (renderConditionalsFrom_marker hmarker behind).trans (Eq.symm ?_)
    -- the marker is now at the start
    rw [← List.nil_append (TEMPLATE_MARKER ++ behind),
      renderConditionalsFrom_marker (by decide : ¬TEMPLATE_MARKER <:+: ([] : Text)) behind, emit_nil]
    rfl

/-- A scan that ends well has come to the end of the text or to a directive that it took. -/
theorem renderConditionalsFrom_ok (h : renderConditionalsFrom context cursor content state = .ok out) :
    (¬TEMPLATE_MARKER <:+: content ∧ state.parentActivity = [] ∧ out = (state.emit content).output) ∨
      ∃ before tail next rest cursor', content = before ++ tail ∧ ¬TEMPLATE_MARKER <:+: before ∧
        Directive context (state.emit before) tail next rest ∧ state.directiveCount + 1 ≤ TEMPLATE_MAX_DIRECTIVES ∧
        renderConditionalsFrom context cursor' rest next = .ok out := by
  rw [renderConditionalsFrom.eq_def] at h
  split at h
  · obtain ⟨hparents, hout⟩ := finishConditionals_ok.mp h
    exact .inl ⟨by decide, hparents, by rw [emit_nil, hout]⟩
  · split at h
    · rename_i hcut
      obtain ⟨hparents, hout⟩ := finishConditionals_ok.mp h
      exact .inl ⟨Text.cut_eq_none.mp hcut, by rwa [emit_parentActivity] at hparents, hout⟩
    · rename_i before behind hcut
      obtain ⟨hsplit, hmarker⟩ := (Text.cut_eq_some unbordered_marker).mp hcut
      rw [hsplit, List.drop_left] at h
      obtain ⟨⟨next, width⟩, hdirective, h⟩ := bind_eq_ok.mp h
      obtain ⟨hcount, rest, hdirective, hlength⟩ := renderDirective_ok.mp hdirective
      obtain ⟨taken, htaken, -⟩ := hdirective.split
      have hwidth : width.val = taken.length := by
        rw [htaken, List.length_append] at hlength
        exact (Nat.add_right_cancel hlength).symm
      dsimp only at h
      rw [hwidth, htaken, ← List.append_assoc, ← List.length_append, List.drop_left] at h
      refine .inr ⟨before, _, next, rest, _, hsplit, hmarker, hdirective, by simpa using hcount, h⟩

/-! ## What the scan makes of a template -/

variable {t : Template} {shown : Text}

theorem marker_endif (rest : Text) : TEMPLATE_MARKER <+: TEMPLATE_ENDIF ++ rest :=
  List.IsPrefix.trans (by decide : TEMPLATE_MARKER <+: TEMPLATE_ENDIF) (List.prefix_append _ _)

/-- The scan of a template emits what it shows, if the branch around it is active. -/
theorem renderConditionalsFrom_shows (hwf : t.WellFormed) (hshows : t.Shows context shown)
    (htail : tail = [] ∨ TEMPLATE_MARKER <+: tail)
    (hcount : state.directiveCount + t.directives ≤ TEMPLATE_MAX_DIRECTIVES)
    (hdepth : state.parentActivity.length + t.depth ≤ TEMPLATE_MAX_NESTING_DEPTH) :
    ∃ cursor', renderConditionalsFrom context cursor (t.source ++ tail) state =
      renderConditionalsFrom context cursor' tail ⟨state.parentActivity, state.active,
        state.directiveCount + t.directives, state.output ++ if state.active then shown else []⟩ := by
  induction t generalizing cursor state tail shown with
  | plain text =>
      cases hshows
      exact ⟨_, (renderConditionalsFrom_plain hwf htail).trans (congrArg _ (emit_eq state text))⟩
  | branch before condition body after ihbody ihafter =>
      obtain ⟨hbefore, hend, hbody, hafter⟩ := hwf
      obtain ⟨parents, active, count, output⟩ := state
      rw [Template.directives] at hcount
      rw [Template.depth] at hdepth
      dsimp only at hcount hdepth ⊢
      cases hshows with
      | @branch _ _ _ _ selected inner rest hselects hinner hrest =>
          -- the condition, the body, the end of the branch and what follows it, one after the other
          obtain ⟨c₁, h₁⟩ := @renderConditionalsFrom_directive context before _ cursor ⟨parents, active, count, output⟩ _
            (body.source ++ (TEMPLATE_ENDIF ++ (after.source ++ tail))) hbefore
            (.opening hend hselects (by rw [emit_parentActivity]; dsimp only; omega)) (by dsimp only; omega)
          rw [emit_eq] at h₁
          obtain ⟨c₂, h₂⟩ := @ihbody _ c₁ ⟨active :: parents, active && selected, count + 1, output ++ if active then before
            else []⟩ _ hbody hinner (.inr (marker_endif (after.source ++ tail))) (by dsimp only; omega)
            (by rw [List.length_cons]; omega)
          obtain ⟨c₃, h₃⟩ := @renderConditionalsFrom_directive context [] _ c₂ ⟨active :: parents, active && selected,
            count + 1 + body.directives, (output ++ if active then before else []) ++ if active && selected then inner
            else []⟩ _ (after.source ++ tail) (by decide) (.endif (emit_parentActivity _ _)) (by dsimp only; omega)
          rw [emit_nil] at h₃
          obtain ⟨c₄, h₄⟩ := @ihafter tail c₃ ⟨parents, active, count + 1 + body.directives + 1, (output ++ if active then
            before else []) ++ if active && selected then inner else []⟩ _ hafter hrest htail (by dsimp only; omega)
            (by dsimp only; omega)
          have hsource : (Template.branch before condition body after).source ++ tail = before ++ (TEMPLATE_IF_PREFIX ++
              (condition ++ (TEMPLATE_IF_END ++ (body.source ++ (TEMPLATE_ENDIF ++ (after.source ++ tail)))))) := by
            simp only [Template.source, List.append_assoc]
          refine ⟨c₄, (congrArg (renderConditionalsFrom context cursor · _) hsource).trans
            (h₁.trans (h₂.trans (h₃.trans (h₄.trans (congrArg _ ?_)))))⟩
          rw [Template.directives, ConditionalScan.mk.injEq]
          refine ⟨rfl, rfl, by dsimp only; omega, ?_⟩
          cases active <;> simp

/-! ## What a scan that ends well has read -/

/-- The rest of the text: one template for the innermost branch and one for each branch around it. -/
inductive Pending (context : TemplateContext) : List Bool → Text → Nat → Text → Prop
  | last {t : Template} {active shown} (hwf : t.WellFormed) (hshows : t.Shows context shown)
      (hdepth : t.depth ≤ TEMPLATE_MAX_NESTING_DEPTH) :
      Pending context [active] t.source t.directives (if active then shown else [])
  | enclosed {t : Template} {active parent parents shown content directives out} (hwf : t.WellFormed)
      (hshows : t.Shows context shown) (hdepth : (parent :: parents).length + t.depth ≤ TEMPLATE_MAX_NESTING_DEPTH)
      (hparents : Pending context (parent :: parents) content directives out) :
      Pending context (active :: parent :: parents) (t.source ++ (TEMPLATE_ENDIF ++ content))
        (t.directives + 1 + directives) ((if active then shown else []) ++ out)

/-- The innermost template begins with a branch whose body has been read. -/
theorem Pending.branch {active selected : Bool} {parents : List Bool} {body : Template} {shown rest out : Text}
    {directives : Nat} (hbefore : ¬TEMPLATE_MARKER <:+: before) (hend : ¬TEMPLATE_IF_END <:+: condition)
    (hcondition : Selects context condition.trim selected) (hbody : body.WellFormed) (hshows : body.Shows context shown)
    (hdepth : parents.length + 1 + body.depth ≤ TEMPLATE_MAX_NESTING_DEPTH)
    (h : Pending context (active :: parents) rest directives out) :
    Pending context (active :: parents) (before ++ (TEMPLATE_IF_PREFIX ++ (condition ++ (TEMPLATE_IF_END ++ (body.source ++
      (TEMPLATE_ENDIF ++ rest)))))) (2 + body.directives + directives)
      ((if active then before else []) ++ ((if active && selected then shown else []) ++ out)) := by
  cases h with
  | @last after _ afterShown hwf hafter hdepth' =>
      have hbranch := @Pending.last context (.branch before condition body after) active _ ⟨hbefore, hend, hbody, hwf⟩
        (.branch hcondition hshows hafter) (max_le (by rw [List.length_nil] at hdepth; omega) hdepth')
      cases active <;> simpa [Template.source, Template.directives] using hbranch
  | @enclosed after _ parent parents afterShown content count out hwf hafter hdepth' hparents =>
      have hbranch := @Pending.enclosed context (.branch before condition body after) active parent parents _ _ _ _
        ⟨hbefore, hend, hbody, hwf⟩ (.branch hcondition hshows hafter)
        (by rw [Template.depth]; rw [List.length_cons] at hdepth hdepth' ⊢; omega) hparents
      have hcount : (Template.branch before condition body after).directives + 1 + count =
          2 + body.directives + (after.directives + 1 + count) := by
        rw [Template.directives]
        omega
      rw [hcount] at hbranch
      cases active <;> simpa [Template.source] using hbranch

theorem pending_of_renderConditionalsFrom (h : renderConditionalsFrom context cursor content state = .ok out)
    (hcount : state.directiveCount ≤ TEMPLATE_MAX_DIRECTIVES)
    (hdepth : state.parentActivity.length ≤ TEMPLATE_MAX_NESTING_DEPTH) :
    ∃ directives shown, Pending context (state.active :: state.parentActivity) content directives shown ∧
      state.directiveCount + directives ≤ TEMPLATE_MAX_DIRECTIVES ∧ out = state.output ++ shown := by
  induction hlength : content.length using Nat.strong_induction_on generalizing cursor content state with
  | _ n ih =>
      subst hlength
      rcases renderConditionalsFrom_ok h with ⟨hmarker, hparents, hout⟩ |
        ⟨before, tail, next, rest, cursor', rfl, hmarker, hdirective, hcount', hrest⟩
      · rw [hparents]
        refine ⟨0, _, .last (t := .plain content) hmarker (.plain content) (Nat.zero_le _), hcount, ?_⟩
        rw [hout, emit_output]
      · obtain ⟨taken, hsplit, hpos⟩ := hdirective.split
        have hshorter : rest.length < (before ++ tail).length := by
          rw [hsplit, List.length_append, List.length_append]
          omega
        cases hdirective with
        | @endif rest parent parents hparents =>
            rw [emit_parentActivity] at hparents
            rw [hparents, List.length_cons] at hdepth
            obtain ⟨directives, shown, hpending, hsum, rfl⟩ := ih _ hshorter hrest
              (by rwa [emit_directiveCount]) (Nat.le_of_succ_le hdepth) rfl
            rw [emit_directiveCount] at hsum
            dsimp only at hsum
            rw [hparents]
            refine ⟨_, _, .enclosed (t := .plain before) hmarker (.plain before) hdepth hpending, ?_, ?_⟩
            · rw [Template.directives]
              omega
            · rw [emit_output, List.append_assoc]
        | @opening condition rest selected hend hcondition hnested =>
            rw [emit_parentActivity] at hnested hrest
            rw [emit_active, emit_directiveCount, emit_output] at hrest
            obtain ⟨directives, shown, hpending, hsum, rfl⟩ := ih _ hshorter hrest hcount' hnested rfl
            cases hpending with
            | @enclosed body _ _ _ inner after count out hwf hshows hbody hparents =>
                refine ⟨_, _, hparents.branch hmarker hend hcondition hwf hshows hbody, ?_, ?_⟩
                · dsimp only at hsum
                  omega
                · dsimp only
                  rw [List.append_assoc]

/-- The conditional directives form a template within the limits, and what it shows is left of the text. -/
theorem renderConditionals_ok : renderConditionals content context = .ok out ↔
    ∃ t : Template, t.source = content ∧ t.WellFormed ∧ t.Shows context out ∧ t.directives ≤ TEMPLATE_MAX_DIRECTIVES ∧
      t.depth ≤ TEMPLATE_MAX_NESTING_DEPTH := by
  unfold renderConditionals
  constructor
  · intro h
    obtain ⟨directives, shown, hpending, hcount, rfl⟩ :=
      pending_of_renderConditionalsFrom h (Nat.zero_le _) (Nat.zero_le _)
    cases hpending with
    | @last t active shown hwf hshows hdepth =>
        exact ⟨t, rfl, hwf, hshows, by dsimp only at hcount; omega, hdepth⟩
  · rintro ⟨t, rfl, hwf, hshows, hcount, hdepth⟩
    obtain ⟨cursor', h⟩ := @renderConditionalsFrom_shows context [] 0 ⟨[], true, 0, []⟩ t out hwf hshows (.inl rfl)
      (by dsimp only; omega) (by rw [List.length_nil]; omega)
    rw [List.append_nil] at h
    rw [h, renderConditionalsFrom, finishConditionals_ok]
    exact ⟨rfl, rfl⟩

end SecPlatform.Compiler.Templates
