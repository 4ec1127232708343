import SecPlatform.VerificationAction.LegacyJournal
import SecPlatform.VerificationAction.JournalTheorems
import SecPlatform.VerificationAction.Lemmas.SameData

/-!
# Migration keeps the history of an Action

Events of the earlier layout that carry a current Action and a current terminal satisfy what the journal asks of its
events, all but the chain of digests, which is written anew. The migrated text is therefore accepted, and says the same.
-/

namespace SecPlatform.VerificationAction

open Contracts

section Migration

variable [Sha256] {actionKey : VerificationActionKeyDigest}

/-! ## What the reader of the earlier layout guarantees -/

/-- What an event of the earlier layout says behind the events before it, as far as its Action and terminal are current. -/
structure LegacyFollows (expected : VerificationActionKeyDigest) (before : List LegacyVerificationActionJournalEvent)
    (event : LegacyVerificationActionJournalEvent) : Prop where
  sequence : event.sequence = before.length + 1
  actionKey : event.actionKey = expected
  action : ∀ action, event.action = some action → action.actionKey = expected
  transition : Transition (before.getLast?.map fun event => event.state) event.state
  terminal : TerminalBinds event.terminal expected
  carries : event.terminalMigratable → event.terminal.isSome = event.state.carriesTerminal

theorem legacyActionProjection_ok {input : Value} {projection : LegacyActionProjection}
    (h : legacyActionProjection input actionKey = .ok projection) :
    ∀ action, projection.action = some action → action.actionKey = actionKey := by
  intro action haction
  unfold legacyActionProjection at h
  split at h
  · rename_i hcurrent
    cases h
    obtain ⟨current, -, hcurrent⟩ := bind_eq_ok.mp hcurrent
    obtain ⟨hkey, hcurrent⟩ := check_bind_eq_ok.mp hcurrent
    cases hcurrent
    cases haction
    exact require_eq_ok.mp hkey
  · split at h
    · obtain ⟨-, h⟩ := check_bind_eq_ok.mp h
      obtain ⟨-, h⟩ := check_bind_eq_ok.mp h
      obtain ⟨-, h⟩ := check_bind_eq_ok.mp h
      obtain ⟨source, -, h⟩ := bind_eq_ok.mp h
      cases h
      cases haction
    · cases h

theorem retiredTerminal_ok {value : List (Text × Value)} {terminal : LegacyTerminal} (h : retiredTerminal value = .ok terminal) :
    terminal.migratable = false := by
  unfold retiredTerminal at h
  dsimp only at h
  obtain ⟨-, h⟩ := check_bind_eq_ok.mp h
  obtain ⟨-, h⟩ := check_bind_eq_ok.mp h
  obtain ⟨-, h⟩ := check_bind_eq_ok.mp h
  obtain ⟨-, h⟩ := check_bind_eq_ok.mp h
  obtain ⟨resultDigest, -, h⟩ := bind_eq_ok.mp h
  obtain ⟨-, h⟩ := check_bind_eq_ok.mp h
  split at h
  · obtain ⟨-, h⟩ := check_bind_eq_ok.mp h
    cases h
    rfl
  · cases h
    rfl

/-- A terminal that can migrate is one exactly where there is one. -/
theorem legacyTerminal_ok {input : Value} {terminal : LegacyTerminal} (h : legacyTerminal input = .ok terminal)
    (hmigratable : terminal.migratable) : terminal.terminal = none ↔ input = .null := by
  unfold legacyTerminal at h
  split at h
  · cases h
    exact ⟨fun _ => rfl, fun _ => rfl⟩
  · rename_i hne
    split at h
    · cases h
      exact ⟨nofun, fun h => absurd h hne⟩
    · split at h
      · rw [retiredTerminal_ok h] at hmigratable
        cases hmigratable
      · cases h

theorem legacyFollows_of_validateLegacyEvent {before : List LegacyVerificationActionJournalEvent}
    {event : LegacyVerificationActionJournalEvent} {candidate : Value}
    (h : validateLegacyEvent candidate actionKey before.getLast? (before.length + 1) = .ok event) :
    LegacyFollows actionKey before event := by
  cases candidate with
  | obj value =>
      unfold validateLegacyEvent validateLegacyEventMembers at h
      obtain ⟨-, h⟩ := check_bind_eq_ok.mp h
      obtain ⟨-, h⟩ := check_bind_eq_ok.mp h
      obtain ⟨-, h⟩ := check_bind_eq_ok.mp h
      obtain ⟨projection, hprojection, h⟩ := bind_eq_ok.mp h
      obtain ⟨-, h⟩ := check_bind_eq_ok.mp h
      obtain ⟨stateValue, -, h⟩ := bind_eq_ok.mp h
      obtain ⟨state, hstate, h⟩ := bind_eq_ok.mp h
      obtain ⟨previousDigest, -, h⟩ := bind_eq_ok.mp h
      obtain ⟨-, h⟩ := check_bind_eq_ok.mp h
      obtain ⟨terminal, hterminal, h⟩ := bind_eq_ok.mp h
      obtain ⟨hbinds, h⟩ := check_bind_eq_ok.mp h
      obtain ⟨hrequires, h⟩ := check_bind_eq_ok.mp h
      obtain ⟨hforbids, h⟩ := check_bind_eq_ok.mp h
      obtain ⟨recordedAt, -, h⟩ := bind_eq_ok.mp h
      obtain ⟨note, -, h⟩ := bind_eq_ok.mp h
      obtain ⟨binding, -, h⟩ := bind_eq_ok.mp h
      obtain ⟨encoded, -, h⟩ := bind_eq_ok.mp h
      obtain ⟨-, h⟩ := check_bind_eq_ok.mp h
      cases h
      have hrequires := require_eq_ok.mp hrequires
      have hforbids := require_eq_ok.mp hforbids
      refine {
        sequence := rfl
        actionKey := rfl
        action := legacyActionProjection_ok hprojection
        transition := (assertTransition_ok.mp hstate).2
        terminal := assertTerminalBindsAction_ok.mp hbinds
        carries := fun hmigratable => ?_ }
      have hnull := legacyTerminal_ok hterminal hmigratable
      cases hcarries : state.carriesTerminal with
      | true => exact Option.isSome_iff_ne_none.mpr fun hnone => hrequires hcarries (hnull.mp hnone)
      | false =>
          rw [hnull.mpr (hforbids (by simp [hcarries]))]
          rfl
  | null | bool | num | str | arr => cases h

/-- A text that the reader accepts holds events, within the ceiling, each of which follows the ones before it. -/
theorem legacyFollows_of_parseLegacyJournalSource {source : Text} {events : List LegacyVerificationActionJournalEvent}
    (h : parseLegacyJournalSource actionKey source = .ok events) :
    events ≠ [] ∧ events.length ≤ maximumEvents ∧ EachAfter (LegacyFollows actionKey) events := by
  unfold parseLegacyJournalSource at h
  obtain ⟨-, h⟩ := check_bind_eq_ok.mp h
  obtain ⟨hlength, h⟩ := check_bind_eq_ok.mp h
  obtain ⟨hcount, hfollows⟩ : events.length = (Text.splitAt lineBreak source.dropLast).length ∧
      EachAfter (LegacyFollows actionKey) events := by
    refine foldlM_rule (P := fun lines events => events.length = lines.length ∧ EachAfter (LegacyFollows actionKey) events)
      (fun lines before line after hbefore hline => ?_) ⟨rfl, .nil⟩ h
    unfold readLegacyLine at hline
    obtain ⟨candidate, -, hline⟩ := bind_eq_ok.mp hline
    obtain ⟨event, hevent, hline⟩ := bind_eq_ok.mp hline
    obtain ⟨encoded, -, hline⟩ := bind_eq_ok.mp hline
    obtain ⟨-, hline⟩ := check_bind_eq_ok.mp hline
    cases hline
    exact ⟨by simp [hbefore.1], hbefore.2.snoc (legacyFollows_of_validateLegacyEvent hevent)⟩
  refine ⟨?_, hcount.le.trans (require_eq_ok.mp hlength), hfollows⟩
  rintro rfl
  exact Text.splitAt_ne_nil _ _ (List.length_eq_zero_iff.mp hcount.symm)

/-! ## What the migration writes -/

/-- The event says what the event of the earlier layout says. -/
structure SaysTheSame (legacy : LegacyVerificationActionJournalEvent) (event : VerificationActionJournalEvent) : Prop where
  sequence : event.sequence = legacy.sequence
  state : event.state = legacy.state
  action : some event.action = legacy.action
  recordedAt : event.recordedAt = legacy.recordedAt
  terminal : event.terminal = legacy.terminal
  note : event.note = legacy.note

theorem SaysTheSame.getLast? {legacies : List LegacyVerificationActionJournalEvent} {events : List VerificationActionJournalEvent}
    (h : List.Forall₂ SaysTheSame legacies events) {β : Type} {f : LegacyVerificationActionJournalEvent → β}
    {g : VerificationActionJournalEvent → β} (hfg : ∀ legacy event, SaysTheSame legacy event → g event = f legacy) :
    events.getLast?.map g = legacies.getLast?.map f := by
  have hmap : events.map g = legacies.map f := by
    induction h with
    | nil => rfl
    | cons hsame _ ih => rw [List.map_cons, List.map_cons, hfg _ _ hsame, ih]
  rw [← List.getLast?_map, hmap, List.getLast?_map]

/-- Events of the earlier layout that can migrate become a journal that says the same. -/
theorem foldlM_migrateEvent {legacies : List LegacyVerificationActionJournalEvent}
    (hfollows : EachAfter (LegacyFollows actionKey) legacies) (hmigratable : ∀ legacy ∈ legacies, legacy.terminalMigratable)
    (haction : ∀ legacy ∈ legacies, legacy.action.isSome) :
    ∃ events, Chained actionKey events ∧ List.Forall₂ SaysTheSame legacies events ∧
      legacies.foldlM migrateEvent ([], none) =
        .ok (events.map fun event => encodeCanonical event.toValue, events.getLast?.map fun event => event.eventDigest) := by
  induction legacies using List.reverseRecOn with
  | nil => exact ⟨[], .nil, .nil, rfl⟩
  | append_singleton before legacy ih =>
      obtain ⟨hbefore, hlegacy⟩ := eachAfter_snoc.mp hfollows
      obtain ⟨events, hchained, hsame, hfold⟩ := ih hbefore (fun l hl => hmigratable l (List.mem_append_left _ hl))
        fun l hl => haction l (List.mem_append_left _ hl)
      have hcan := hmigratable legacy (List.mem_append_right _ (List.mem_singleton_self _))
      obtain ⟨action, hcurrent⟩ := Option.isSome_iff_exists.mp
        (haction legacy (List.mem_append_right _ (List.mem_singleton_self _)))
      let event : VerificationActionJournalEvent := UnsignedEvent.signed {
        sequence := legacy.sequence, actionKey := legacy.actionKey, action, state := legacy.state
        recordedAt := legacy.recordedAt, terminal := legacy.terminal, note := legacy.note
        previousDigest := events.getLast?.map fun event => event.eventDigest }
      have hstates : events.getLast?.map (fun event => event.state) = before.getLast?.map fun legacy => legacy.state :=
        SaysTheSame.getLast? hsame fun _ _ h => h.state
      have hevent : Follows actionKey events event := {
        sequence := hlegacy.sequence.trans (by rw [hsame.length_eq])
        actionKey := hlegacy.actionKey
        action := hlegacy.action action hcurrent
        transition := by
          rw [hstates]
          exact hlegacy.transition
        chain := rfl
        terminal := hlegacy.terminal
        carries := hlegacy.carries hcan }
      have hsays : SaysTheSame legacy event := ⟨rfl, rfl, hcurrent.symm, rfl, rfl, rfl⟩
      refine ⟨events ++ [event], hchained.snoc hevent, List.rel_append hsame (.cons hsays .nil), ?_⟩
      have hline : encodeVerificationActionData event.toValue = .ok (encodeCanonical event.toValue) := by
        rw [encode_written (written_event event), encodeCanonical_written (written_event event)]
      have hturn : migrateEvent (events.map fun event => encodeCanonical event.toValue,
          events.getLast?.map fun event => event.eventDigest) legacy =
          .ok ((events.map fun event => encodeCanonical event.toValue) ++ [encodeCanonical event.toValue],
            some event.eventDigest) := by
        unfold migrateEvent
        rw [require, if_pos hcan, ok_bind, hcurrent, migratableAction, ok_bind]
        exact bind_eq_ok.mpr ⟨_, hline, rfl⟩
      rw [List.foldlM_append, hfold, ok_bind, List.foldlM_cons, hturn, ok_bind, List.getLast?_concat, List.map_append]
      rfl

/-- Lines with a break behind the last are the text of the journal. -/
theorem joinWith_lines {events : List VerificationActionJournalEvent} (h : events ≠ []) :
    Text.joinWith [lineBreak] (events.map fun event => encodeCanonical event.toValue) ++ [lineBreak] = journalText events := by
  rw [← splitAt_journalText h, Text.joinWith_splitAt, List.dropLast_append_getLast? _ (getLast?_journalText h)]

/-- A journal of the earlier layout whose events can migrate and carry a current Action becomes a text that is accepted as
a journal of the Action; event by event it says the same, and so does the journal as a whole. -/
theorem migratedJournalSource_preserves {source : Text} {legacies : List LegacyVerificationActionJournalEvent}
    (h : parseLegacyJournalSource actionKey source = .ok legacies)
    (hmigratable : ∀ legacy ∈ legacies, legacy.terminalMigratable) (haction : ∀ legacy ∈ legacies, legacy.action.isSome) :
    ∃ migrated readback, migratedJournalSource legacies = .ok migrated ∧
      parseJournalSource actionKey (some migrated) = .ok readback ∧
      readback.events.length = legacies.length ∧ List.Forall₂ SaysTheSame legacies readback.events ∧
      readback.latestState = legacies.getLast?.map (fun legacy => legacy.state) ∧
      readback.terminal = legacies.getLast?.bind fun legacy => legacy.terminal := by
  obtain ⟨hne, hlength, hfollows⟩ := legacyFollows_of_parseLegacyJournalSource h
  obtain ⟨events, hchained, hsame, hfold⟩ := foldlM_migrateEvent hfollows hmigratable haction
  have hcount := hsame.length_eq
  have hne' : events ≠ [] := by
    rintro rfl
    exact hne (List.length_eq_zero_iff.mp hcount)
  refine ⟨journalText events, readbackOf events, ?_, ?_, hcount.symm, hsame, SaysTheSame.getLast? hsame fun _ _ h => h.state,
    ?_⟩
  · rw [migratedJournalSource, hfold, ok_bind]
    exact congrArg Except.ok (joinWith_lines hne')
  · rw [parseJournalSource, parseJournalLines_ok.mpr ⟨hne', hcount ▸ hlength, hchained, rfl⟩]
    rfl
  · obtain ⟨init, last, rfl⟩ : ∃ init last, events = init ++ [last] :=
      ⟨events.dropLast, events.getLast hne', (List.dropLast_append_getLast hne').symm⟩
    have hterminals := SaysTheSame.getLast? hsame fun _ _ h => h.terminal
    rw [List.getLast?_concat, Option.map_some] at hterminals
    obtain ⟨legacy, hlegacy, hterminal⟩ := Option.map_eq_some_iff.mp hterminals.symm
    have hcarries := (eachAfter_snoc.mp hchained).2.carries
    rw [readbackOf_terminal List.getLast?_concat, hlegacy, Option.bind_some, hterminal]
    split
    · rfl
    · rename_i hnot
      exact (Option.not_isSome_iff_eq_none.mp (hcarries ▸ hnot)).symm

end Migration

/-! ## A queued Action of the earlier layout -/

section SomeLegacy

attribute [local instance] someSha256

def someLegacyMembers : List (Text × Value) := [
  ("action", someAction.toValue),
  ("actionKey", digestValue someAction.actionKey),
  ("eventDigest", digestValue someDigest),
  ("note", .null),
  ("previousDigest", .null),
  ("recordedAt", .str someTime.val),
  ("schema", .str legacyVerificationActionJournalEventSchema),
  ("sequence", natValue 1),
  ("state", .str VerificationActionJournalState.queued.toText),
  ("terminal", .null)]

def someLegacyEvent : LegacyVerificationActionJournalEvent := {
  sequence := 1, actionKey := someAction.actionKey, action := some someAction
  actionSource := encodeCanonical someAction.toValue, state := .queued, recordedAt := someTime, terminal := none
  terminalMigratable := true, note := none, previousDigest := none, eventDigest := someDigest }

theorem written_someLegacy : Written (.obj someLegacyMembers) :=
  written_obj (by dsimp only [someLegacyMembers, List.map]; decide)
    (by simp [someLegacyMembers, written_action, digestValue, natValue])

theorem validateLegacyEvent_some :
    validateLegacyEvent (.obj someLegacyMembers) someAction.actionKey none 1 = .ok someLegacyEvent := by
  have hprojection : legacyActionProjection someAction.toValue someAction.actionKey =
      .ok ⟨some someAction, someAction.toValue, encodeCanonical someAction.toValue⟩ := by
    have hcurrent : currentActionProjection someAction.toValue someAction.actionKey =
        .ok ⟨some someAction, someAction.toValue, encodeCanonical someAction.toValue⟩ := by
      rw [currentActionProjection, reparseAction_toValue, ok_bind, require, if_pos rfl]
      rfl
    rw [legacyActionProjection, hcurrent]
  have hdigest {v : Value} (hv : assertOrdinaryData "canonical serialization" v = .ok ()) :
      encodeVerificationActionData v = .ok (encodeCanonical v) := encodeVerificationActionData_eq_ok.mpr ⟨hv, rfl⟩
  have haction (label : Text) : assertOrdinaryData label someAction.toValue = .ok () :=
    assertOrdinaryData_written _ label (written_action someAction)
  show validateLegacyEventMembers someLegacyMembers someAction.actionKey none 1 = _
  unfold validateLegacyEventMembers
  refine check_bind_eq_ok.mpr ⟨require_eq_ok.mpr (by rfl), ?_⟩
  refine check_bind_eq_ok.mpr ⟨require_eq_ok.mpr rfl, check_bind_eq_ok.mpr ⟨require_eq_ok.mpr ⟨rfl, rfl⟩, ?_⟩⟩
  refine bind_eq_ok.mpr ⟨_, hprojection, check_bind_eq_ok.mpr ⟨require_eq_ok.mpr rfl, ?_⟩⟩
  refine bind_eq_ok.mpr ⟨_, assertState_toText .queued, bind_eq_ok.mpr ⟨.queued, rfl, ?_⟩⟩
  refine bind_eq_ok.mpr ⟨none, rfl, check_bind_eq_ok.mpr ⟨require_eq_ok.mpr rfl, ?_⟩⟩
  refine bind_eq_ok.mpr ⟨⟨none, .null, true⟩, rfl, ?_⟩
  refine check_bind_eq_ok.mpr ⟨assertTerminalBindsAction_ok.mpr (terminalBinds_none _), ?_⟩
  refine check_bind_eq_ok.mpr ⟨require_eq_ok.mpr fun hqueued => absurd hqueued (by decide), ?_⟩
  refine check_bind_eq_ok.mpr ⟨require_eq_ok.mpr fun _ => rfl, ?_⟩
  refine bind_eq_ok.mpr ⟨_, assertIsoDate_val someTime, bind_eq_ok.mpr ⟨none, rfl, bind_eq_ok.mpr ⟨none, rfl, ?_⟩⟩⟩
  refine bind_eq_ok.mpr ⟨_, hdigest (assertOrdinaryMembers_ok _ ?_), check_bind_eq_ok.mpr ⟨require_eq_ok.mpr rfl, rfl⟩⟩
  show ∀ m ∈ [_, _, _, _, _, _, _, _, _], _
  simp only [List.forall_mem_cons]
  exact ⟨⟨by decide, fun _ => rfl⟩, ⟨by decide, fun _ => rfl⟩, ⟨by decide, fun _ => rfl⟩, ⟨by decide, haction⟩,
    ⟨by decide, fun _ => rfl⟩, ⟨by decide, fun _ => rfl⟩, ⟨by decide, fun _ => rfl⟩, ⟨by decide, fun _ => rfl⟩,
    ⟨by decide, fun _ => rfl⟩, List.forall_mem_nil _⟩

/-- The sample journal of the earlier layout, accepted and migrated. -/
theorem migratedJournalSource_preserves_some :
    parseLegacyJournalSource someAction.actionKey (Json.render (.obj someLegacyMembers) ++ [lineBreak]) =
      .ok [someLegacyEvent] ∧
    ∃ migrated readback, migratedJournalSource [someLegacyEvent] = .ok migrated ∧
      parseJournalSource someAction.actionKey (some migrated) = .ok readback ∧
      readback.events.length = 1 ∧ List.Forall₂ SaysTheSame [someLegacyEvent] readback.events ∧
      readback.latestState = some .queued ∧ readback.terminal = none := by
  have hvalue (label : Text) :
      exactValue (Json.render (.obj someLegacyMembers)) label = .ok (.obj someLegacyMembers) := by
    have hparse : parseExactJson (Json.render (.obj someLegacyMembers)) label none none =
        some (.ok (.obj someLegacyMembers)) := parseExactJson_written written_someLegacy label nofun
    simp only [exactValue, hparse, Option.get_some]
    rfl
  have hturn : readLegacyLine someAction.actionKey [] (Json.render (.obj someLegacyMembers)) = .ok [someLegacyEvent] := by
    unfold readLegacyLine
    refine bind_eq_ok.mpr ⟨_, hvalue _, bind_eq_ok.mpr ⟨_, validateLegacyEvent_some, ?_⟩⟩
    exact bind_eq_ok.mpr ⟨_, encode_written written_someLegacy, check_bind_eq_ok.mpr ⟨require_eq_ok.mpr rfl, rfl⟩⟩
  have hparse : parseLegacyJournalSource someAction.actionKey (Json.render (.obj someLegacyMembers) ++ [lineBreak]) =
      .ok [someLegacyEvent] := by
    have hbreak : lineBreak ∉ Json.render (.obj someLegacyMembers) := lineBreak_notMem_written written_someLegacy
    unfold parseLegacyJournalSource
    rw [List.getLast?_concat, List.dropLast_concat, Text.splitAt_of_notMem hbreak]
    refine check_bind_eq_ok.mpr ⟨require_eq_ok.mpr rfl, check_bind_eq_ok.mpr ⟨require_eq_ok.mpr (by decide), ?_⟩⟩
    rw [List.foldlM_cons, hturn]
    rfl
  have hmigratable : ∀ legacy ∈ [someLegacyEvent], legacy.terminalMigratable := List.forall_mem_singleton.mpr rfl
  have haction : ∀ legacy ∈ [someLegacyEvent], legacy.action.isSome := List.forall_mem_singleton.mpr rfl
  exact ⟨hparse, migratedJournalSource_preserves hparse hmigratable haction⟩

end SomeLegacy

end SecPlatform.VerificationAction
