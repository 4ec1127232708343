import SecPlatform.Overrides.Lemmas.Publication

/-!
# What a run overwrites

A file is replaced or deleted right behind a check of its bytes, so that others can only come between by moving in between
these two requests.
-/

namespace SecPlatform.Overrides

open Contracts
open CallM

/-! ## Guarded events -/

/-- A request that overwrites a file is made right behind a check that has found allowed bytes. -/
def Guarded (allowed : Request → Bytes → Prop) (events : List Event) : Prop :=
  ∀ before event after, events = before ++ event :: after → ∀ path, event.request.overwrites = some path →
    ∃ earlier bytes, before = earlier ++ [⟨.check path, .ok (some bytes)⟩] ∧ allowed event.request bytes

variable {allowed allowed' : Request → Bytes → Prop} {events events' : List Event}

/-- A request that overwrites a file is made in the first part, or behind all of it. -/
theorem Guarded.split (h : Guarded allowed events) (h' : Guarded allowed' events') {before after : List Event} {event : Event}
    (heq : events ++ events' = before ++ event :: after) {path : Text} (hpath : event.request.overwrites = some path) :
    ∃ earlier bytes, before = earlier ++ [⟨.check path, .ok (some bytes)⟩] ∧
      (allowed event.request bytes ∨ events <+: earlier ∧ allowed' event.request bytes) := by
  rcases List.append_eq_append_iff.mp heq with ⟨middle, rfl, rfl⟩ | ⟨middle, rfl, hmiddle⟩
  · obtain ⟨earlier, bytes, rfl, hbytes⟩ := h' middle event after rfl path hpath
    exact ⟨events ++ earlier, bytes, (List.append_assoc ..).symm, .inr ⟨List.prefix_append .., hbytes⟩⟩
  · cases middle with
    | nil =>
        obtain ⟨earlier, bytes, hnil, -⟩ := h' [] event after hmiddle.symm path hpath
        exact absurd hnil.symm (List.append_ne_nil_of_right_ne_nil _ (List.cons_ne_nil _ _))
    | cons other middle =>
        obtain ⟨rfl, -⟩ := List.cons.inj hmiddle
        obtain ⟨earlier, bytes, rfl, hbytes⟩ := h before event middle rfl path hpath
        exact ⟨earlier, bytes, rfl, .inl hbytes⟩

theorem Guarded.append (h : Guarded allowed events) (h' : Guarded allowed events') : Guarded allowed (events ++ events') := by
  intro before event after heq path hpath
  obtain ⟨earlier, bytes, hbefore, hbytes⟩ := h.split h' heq hpath
  exact ⟨earlier, bytes, hbefore, hbytes.elim id And.right⟩

theorem overwrites_of_quiet {request : Request} (h : Quiet request) : request.overwrites = none := by
  cases request <;> first | rfl | cases h

/-- Requests none of which overwrites a file. -/
theorem guarded_of_none (h : ∀ event ∈ events, event.request.overwrites = none) : Guarded allowed events := by
  rintro before event after rfl path hpath
  rw [h event (List.mem_append_right _ List.mem_cons_self)] at hpath
  cases hpath

theorem guarded_of_quiet (h : ∀ event ∈ events, Quiet event.request) : Guarded allowed events :=
  guarded_of_none fun event hevent => overwrites_of_quiet (h event hevent)

theorem guarded_single {event : Event} (h : event.request.overwrites = none) : Guarded allowed [event] :=
  guarded_of_none (List.forall_mem_singleton.mpr h)

/-- A check and the request behind it. -/
theorem guarded_checked {path : Text} {bytes : Bytes} {event : Event}
    (hevent : ∀ other, event.request.overwrites = some other → other = path) (h : allowed event.request bytes) :
    Guarded allowed [⟨.check path, .ok (some bytes)⟩, event] := by
  intro before other after heq target htarget
  match before with
  | [] =>
      obtain ⟨rfl, -⟩ := List.cons.inj heq
      cases htarget
  | [first] =>
      obtain ⟨rfl, htail⟩ := List.cons.inj heq
      obtain ⟨rfl, -⟩ := List.cons.inj htail
      obtain rfl := hevent target htarget
      exact ⟨[], bytes, rfl, h⟩
  | _ :: _ :: rest =>
      have hnil := (List.cons.inj (List.cons.inj heq).2).2
      exact absurd hnil.symm (List.append_ne_nil_of_right_ne_nil _ (List.cons_ne_nil _ _))

/-! ## Guarded programs -/

/-- The program keeps its variable and overwrites allowed bytes only, and when it returns such a value, it has made such a
request. -/
def Guards {α : Type} (allowed : Request → Bytes → Prop) (returned : α → Prop) (made : Event → Prop) (x : Apply α) :
    Prop :=
  ∀ published events outcome published', Ends x published events outcome published' → published' = published ∧
    Guarded allowed events ∧ ∀ a, outcome = .ok a → returned a → ∃ event ∈ events, made event

section Programs

variable {α : Type} {returned : α → Prop} {made : Event → Prop} {targetPath label : Text} {bytes expectedBytes : Bytes}
  {fence : Apply Unit} {override : PreparedOverride}

theorem guards_bind {β : Type} {x : Apply β} {f : β → Apply α} (hx : Within Quiet x)
    (hf : ∀ b, Guards allowed returned made (f b)) : Guards allowed returned made (x >>= f) := by
  intro published events outcome published' h
  rcases ends_bind.mp h with ⟨e, hthrow, rfl⟩ | ⟨before, b, published₁, after, rfl, hfirst, hnext⟩
  · obtain ⟨rfl, hquiet⟩ := hx _ _ _ _ hthrow
    exact ⟨rfl, guarded_of_quiet hquiet, nofun⟩
  · obtain ⟨rfl, hquiet⟩ := hx _ _ _ _ hfirst
    obtain ⟨rfl, hguarded, hmade⟩ := hf b _ _ _ _ hnext
    refine ⟨rfl, (guarded_of_quiet hquiet).append hguarded, fun a ha hreturned => ?_⟩
    obtain ⟨event, hevent, hmade⟩ := hmade a ha hreturned
    exact ⟨event, List.mem_append_right _ hevent, hmade⟩

theorem guards_map {β : Type} {x : Apply β} {f : β → α} (hx : Guards allowed (fun b => returned (f b)) made x) :
    Guards allowed returned made (f <$> x) := by
  intro published events outcome published' h
  cases outcome with
  | error e =>
      obtain ⟨rfl, hguarded, -⟩ := hx _ _ _ _ (ends_map_error.mp h)
      exact ⟨rfl, hguarded, nofun⟩
  | ok a =>
      obtain ⟨b, hb, rfl⟩ := ends_map_ok.mp h
      obtain ⟨rfl, hguarded, hmade⟩ := hx _ _ _ _ hb
      refine ⟨rfl, hguarded, fun a ha => ?_⟩
      obtain rfl := Except.ok.inj ha
      exact hmade b rfl

theorem guards_of_quiet {x : Apply α} (hx : Within Quiet x) : Guards allowed (fun _ => False) made x := by
  intro published events outcome published' h
  obtain ⟨rfl, hquiet⟩ := hx _ _ _ _ h
  exact ⟨rfl, guarded_of_quiet hquiet, fun _ _ => False.elim⟩

theorem guards_perform (request : Request) {returned : request.Answer → Prop} (hnone : request.overwrites = none)
    (hmade : ∀ answer, returned answer → made ⟨request, .ok answer⟩) : Guards allowed returned made (ask request) := by
  intro published events outcome published' h
  obtain ⟨rfl, rfl⟩ := ends_perform.mp h
  refine ⟨rfl, guarded_single hnone, ?_⟩
  rintro answer rfl hreturned
  exact ⟨_, List.mem_cons_self, hmade answer hreturned⟩

/-- A check of a target and one request behind it. -/
theorem guards_check {message : Thrown} (request : Request)
    (hpath : ∀ other, request.overwrites = some other → other = targetPath) (hallowed : allowed request expectedBytes)
    (hmade : ∀ answer, made ⟨request, .ok answer⟩) :
    Guards allowed (fun _ => True) made (ask (.check targetPath) >>= fun current =>
      result (require (current = some expectedBytes) message) >>= fun _ => ask request) := by
  intro published events outcome published' h
  rcases ends_perform_bind.mp h with ⟨e, rfl, rfl, rfl⟩ | ⟨current, after, rfl, hrest⟩
  · exact ⟨rfl, guarded_single rfl, nofun⟩
  rcases ends_result_bind.mp hrest with ⟨e, -, rfl, rfl, rfl⟩ | ⟨_, hexpected, hend⟩
  · exact ⟨rfl, guarded_single rfl, nofun⟩
  obtain rfl := require_eq_ok.mp hexpected
  obtain ⟨rfl, rfl⟩ := ends_perform.mp hend
  refine ⟨rfl, guarded_checked hpath hallowed, ?_⟩
  rintro answer rfl -
  exact ⟨_, List.mem_cons_of_mem _ List.mem_cons_self, hmade answer⟩

/-! ## Publications -/

variable [UnicodeText]

theorem guards_publishExclusive (hfence : Within Quiet fence)
    (hmade : made ⟨.publishExclusive targetPath bytes, .ok true⟩) :
    Guards allowed (fun created => created = true) made (publishExclusiveCanonicalWorkspaceFile targetPath bytes fence) :=
  guards_bind (quiet_creatableParent hfence targetPath) fun _ => guards_bind hfence fun _ =>
    guards_perform (.publishExclusive targetPath bytes) rfl fun _ hcreated => hcreated ▸ hmade

theorem guards_publishExpected (hfence : Within Quiet fence) (hallowed : allowed (.replace targetPath bytes) expectedBytes)
    (hmade : made ⟨.replace targetPath bytes, .ok ()⟩) :
    Guards allowed (fun _ => True) made
      (publishExpectedCanonicalWorkspaceFile targetPath expectedBytes bytes label fence) :=
  guards_bind (quiet_existingParent hfence targetPath) fun _ => guards_bind hfence fun _ =>
    guards_check (.replace targetPath bytes) (fun _ h => (Option.some.inj h).symm) hallowed fun _ => hmade

theorem guards_deleteExpected (hallowed : allowed (.delete targetPath) expectedBytes)
    (hmade : made ⟨.delete targetPath, .ok ()⟩) :
    Guards allowed (fun _ => True) made (deleteExpectedCanonicalWorkspaceFile targetPath expectedBytes label) :=
  guards_bind (quiet_existingParent (quiet_pure ()) targetPath) fun _ =>
    guards_check (.delete targetPath) (fun _ h => (Option.some.inj h).symm) hallowed fun _ => hmade

/-- The request by which an override was published. -/
def Publishes (override : PreparedOverride) (event : Event) : Prop :=
  event = ⟨.publishExclusive override.targetPath override.sourceBytes, .ok true⟩ ∨
    event = ⟨.replace override.targetPath override.sourceBytes, .ok ()⟩

/-- A replacement of the planned bytes of an override by the bytes of its source. -/
def Planned (overrides : List PreparedOverride) (request : Request) (bytes : Bytes) : Prop :=
  ∃ override ∈ overrides, request = .replace override.targetPath override.sourceBytes ∧
    override.targetPreimage = some bytes

/-- A request that overwrites the published bytes of an override. -/
def Compensates (overrides : List PreparedOverride) (request : Request) (bytes : Bytes) : Prop :=
  ∃ override ∈ overrides, request.overwrites = some override.targetPath ∧ bytes = override.sourceBytes

theorem guards_publishOverride {overrides : List PreparedOverride} (hmem : override ∈ overrides) :
    Guards (Planned overrides) (fun published => published = true) (Publishes override) (publishOverride override) := by
  have hfence := quiet_publicationFence override
  unfold publishOverride
  split
  · exact guards_publishExclusive hfence (.inl rfl)
  rename_i preimage hpreimage
  split
  · refine guards_bind hfence fun _ => guards_bind (within_perform rfl) fun _ => guards_bind within_result fun _ => ?_
    intro published events outcome published' h
    obtain ⟨rfl, rfl, rfl⟩ := ends_pure.mp h
    exact ⟨rfl, guarded_of_none (List.forall_mem_nil _), fun _ hfalse htrue => by cases htrue; cases hfalse⟩
  · rw [bind_pure_comp]
    refine guards_map ?_
    simp only
    exact guards_publishExpected hfence ⟨override, hmem, rfl, hpreimage⟩ (.inr rfl)

/-- The compensation of an override overwrites its published bytes only. -/
theorem guards_rollbackOverride {overrides : List PreparedOverride} (hmem : override ∈ overrides) :
    Guards (Compensates overrides) (fun _ => True) (fun _ => True) (rollbackOverride override) := by
  unfold rollbackOverride
  split
  · exact guards_deleteExpected ⟨override, hmem, rfl, rfl⟩ trivial
  · exact guards_publishExpected (quiet_pure ()) ⟨override, hmem, rfl, rfl⟩ trivial

/-! ## Loops -/

variable {published published' prepared overrides : List PreparedOverride}

/-- The publishing loop overwrites planned bytes only, and has made a request for every override it has recorded. -/
theorem guarded_publishLoop {outcome : Except Thrown Unit} (hsub : prepared ⊆ overrides)
    (h : Ends (prepared.forM publishAndRecord) published events outcome published') :
    Guarded (Planned overrides) events ∧ ∃ added, published' = published ++ added ∧ added ⊆ prepared ∧
      ∀ override ∈ added, ∃ event ∈ events, Publishes override event := by
  induction prepared generalizing published events with
  | nil =>
      obtain ⟨rfl, rfl, rfl⟩ := ends_pure.mp h
      exact ⟨guarded_of_none nofun, [], (List.append_nil _).symm, List.nil_subset _, nofun⟩
  | cons override prepared ih =>
      obtain ⟨hmem, hrest⟩ := List.cons_subset.mp hsub
      have hturn := guards_publishOverride hmem
      change Ends ((publishOverride override >>= fun published =>
        if published then change fun published => published ++ [override] else pure ()) >>= fun _ =>
          prepared.forM publishAndRecord) _ _ _ _ at h
      rw [bind_assoc] at h
      rcases ends_bind.mp h with ⟨e, hthrow, -⟩ | ⟨before, recorded, published₁, after, rfl, hfirst, hnext⟩
      · obtain ⟨rfl, hguarded, -⟩ := hturn _ _ _ _ hthrow
        exact ⟨hguarded, [], (List.append_nil _).symm, List.nil_subset _, nofun⟩
      obtain ⟨rfl, hguarded, hmade⟩ := hturn _ _ _ _ hfirst
      cases recorded with
      | true =>
          obtain ⟨hafter, added, rfl, hadded, hevents⟩ := ih hrest (ends_change_bind.mp hnext)
          refine ⟨hguarded.append hafter, override :: added, by rw [List.append_assoc]; rfl,
            List.cons_subset_cons _ hadded, ?_⟩
          obtain ⟨event, hevent, hpublishes⟩ := hmade true rfl rfl
          refine List.forall_mem_cons.mpr ⟨⟨event, List.mem_append_left _ hevent, hpublishes⟩, fun other hother => ?_⟩
          obtain ⟨event, hevent, hpublishes⟩ := hevents other hother
          exact ⟨event, List.mem_append_right _ hevent, hpublishes⟩
      | false =>
          obtain ⟨hafter, added, rfl, hadded, hevents⟩ := ih hrest hnext
          refine ⟨hguarded.append hafter, added, rfl, List.subset_cons_of_subset _ hadded, fun other hother => ?_⟩
          obtain ⟨event, hevent, hpublishes⟩ := hevents other hother
          exact ⟨event, List.mem_append_right _ hevent, hpublishes⟩

theorem guarded_rollback {outcome : Except Thrown (List RollbackFailure)} (hsub : published ⊆ overrides)
    {start final : List PreparedOverride}
    (h : Ends (rollbackPublishedOverrides published) start events outcome final) :
    Guarded (Compensates overrides) events := by
  induction published generalizing start final events outcome with
  | nil =>
      obtain ⟨rfl, -, -⟩ := ends_pure.mp h
      exact guarded_of_none nofun
  | cons override rest ih =>
      obtain ⟨hmem, hrest⟩ := List.cons_subset.mp hsub
      have hcompensate {failed : Except Thrown (List RollbackFailure)} {begun before middle}
          (hfirst : Ends (compensate override) begun before failed middle) :
          Guarded (Compensates overrides) before := by
        unfold compensate at hfirst
        rcases ends_tryCatch.mp hfirst with ⟨_, hdone, -⟩ | ⟨thrown, e, _, tail, rfl, hthrow, hhandler⟩
        · obtain ⟨_, hend, -⟩ := ends_map_ok.mp hdone
          exact (guards_rollbackOverride hmem _ _ _ _ hend).2.1
        · obtain ⟨rfl, -, -⟩ := ends_pure.mp hhandler
          rw [List.append_nil]
          exact (guards_rollbackOverride hmem _ _ _ _ (ends_map_error.mp hthrow)).2.1
      unfold rollbackPublishedOverrides at h
      rcases ends_bind.mp h with ⟨e, hthrow, -⟩ | ⟨before, failed, _, after, rfl, hfirst, hnext⟩
      · exact hcompensate hthrow
      refine (hcompensate hfirst).append ?_
      rcases ends_bind.mp hnext with ⟨e, hthrow, -⟩ | ⟨middle, others, _, last, rfl, hothers, hdone⟩
      · exact ih hrest hthrow
      · obtain ⟨rfl, -, -⟩ := ends_pure.mp hdone
        rw [List.append_nil]
        exact ih hrest hothers

/-- Publishing overwrites planned bytes, or in the rollback the bytes of an override that it has published before. -/
theorem publishOverrides_overwrites {outcome : Except Thrown Unit}
    (h : Ends (publishOverrides prepared) [] events outcome published') {before after : List Event} {event : Event}
    (heq : events = before ++ event :: after) {path : Text} (hpath : event.request.overwrites = some path) :
    ∃ earlier bytes, before = earlier ++ [⟨.check path, .ok (some bytes)⟩] ∧ (Planned prepared event.request bytes ∨
      ∃ override ∈ prepared, event.request.overwrites = some override.targetPath ∧ bytes = override.sourceBytes ∧
        ∃ event ∈ earlier, Publishes override event) := by
  rcases ends_tryCatch.mp h with ⟨_, hloop, -⟩ | ⟨middle, failure, published₁, last, rfl, hloop, hrecover⟩
  · obtain ⟨hguarded, -⟩ := guarded_publishLoop (List.Subset.refl _) hloop
    obtain ⟨earlier, bytes, rfl, hplanned⟩ := hguarded before event after heq path hpath
    exact ⟨earlier, bytes, rfl, .inl hplanned⟩
  obtain ⟨hguarded, added, hpublished, hadded, hmade⟩ := guarded_publishLoop (List.Subset.refl _) hloop
  obtain rfl : added = published₁ := hpublished.symm
  -- the handler makes the requests of the rollback only
  have hlast : Guarded (Compensates added) last := by
    unfold recoverOverrides at hrecover
    rcases ends_bind.mp (ends_current_bind.mp hrecover) with ⟨e, hthrow, -⟩ | ⟨rolled, failures, _, tail, rfl, hroll, hthrow⟩
    · exact guarded_rollback (List.reverse_subset.mpr (List.Subset.refl _)) hthrow
    · have htail : tail = [] := by
        split at hthrow
        · exact (ends_throw.mp hthrow).1
        · exact (ends_throw.mp hthrow).1
      rw [htail, List.append_nil]
      exact guarded_rollback (List.reverse_subset.mpr (List.Subset.refl _)) hroll
  obtain ⟨earlier, bytes, rfl, hplanned | ⟨hearlier, override, hmem, hrequest, rfl⟩⟩ := hguarded.split hlast heq hpath
  · exact ⟨earlier, bytes, rfl, .inl hplanned⟩
  · obtain ⟨publication, hpublication, hpublishes⟩ := hmade override hmem
    exact ⟨earlier, _, rfl, .inr ⟨override, hadded hmem, hrequest, rfl, publication, hearlier.subset hpublication,
      hpublishes⟩⟩

end Programs

end SecPlatform.Overrides
