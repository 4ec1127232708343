import Mathlib.Data.List.Pairwise
import SecPlatform.Library.Run
import SecPlatform.VerificationAction.JournalRecords
import SecPlatform.VerificationAction.Lemmas.Terminal

/-!
# Journals read back

A journal is accepted exactly when it is the text of a bounded, non-empty list of events, each of which follows
the events before it.
-/

namespace SecPlatform.VerificationAction

open Contracts

/-! ## Single values -/

@[simp] theorem assertIsoDate_val (value : IsoText) : assertIsoDate (.str value.val) = .ok value := checkedText_val value _

@[simp] theorem assertNote_nullable (note : Option Note) :
    assertNote (nullable (fun note : Note => .str note.val) note) = .ok note := by
  cases note with
  | none => rfl
  | some note => exact congrArg (Except.map some) (checkedText_val note _)

@[simp] theorem assertDigest_nullable (d : Option Digest) (label : Text) :
    assertDigest (nullable digestValue d) label = .ok d := by
  cases d with
  | none => rfl
  | some d => exact congrArg (Except.map some) (checkedText_val d _)

@[simp] theorem ownerToken_val (token : OwnerToken) : ownerToken (.str token.val) = .ok token := checkedText_val token _

@[simp] theorem assertState_toText (state : VerificationActionJournalState) :
    assertState (.str state.toText) = .ok (.str state.toText) := by
  cases state <;> rfl

/-! ## Transitions -/

/-- The state may stand behind these. -/
def Transition (previous : Option VerificationActionJournalState) (next : VerificationActionJournalState) : Prop :=
  match previous with
  | none => next = .queued
  | some previous => next ∈ previous.allowed

instance (previous : Option VerificationActionJournalState) (next : VerificationActionJournalState) :
    Decidable (Transition previous next) := by
  unfold Transition
  split <;> infer_instance

theorem toText_injective {a b : VerificationActionJournalState} (h : a.toText = b.toText) : a = b := by
  revert h
  cases a <;> cases b <;> decide

theorem findState_eq_some {states : List VerificationActionJournalState} {value : Value}
    {state : VerificationActionJournalState} (h : findState states value = some state) :
    state ∈ states ∧ value = .str state.toText :=
  ⟨List.mem_of_find?_eq_some h, by simpa using List.find?_some h⟩

theorem findState_toText {states : List VerificationActionJournalState} {state : VerificationActionJournalState}
    (h : state ∈ states) : findState states (.str state.toText) = some state := by
  cases hfind : findState states (.str state.toText) with
  | none =>
      have hnot := List.find?_eq_none.mp hfind state h
      simp at hnot
  | some found =>
      obtain ⟨-, heq⟩ := findState_eq_some hfind
      rw [toText_injective (Json.str.inj heq)]

theorem assertTransition_ok {previous : Option VerificationActionJournalState} {next : Value}
    {state : VerificationActionJournalState} :
    assertTransition previous next = .ok state ↔ next = .str state.toText ∧ Transition previous state := by
  unfold assertTransition Transition
  constructor
  · intro h
    cases previous with
    | none =>
        dsimp only at h ⊢
        split at h
        · rename_i hfind
          cases h
          obtain ⟨hmem, hnext⟩ := findState_eq_some hfind
          exact ⟨hnext, List.mem_singleton.mp hmem⟩
        · cases h
    | some previous =>
        dsimp only at h ⊢
        split at h
        · rename_i hfind
          cases h
          exact (findState_eq_some hfind).symm
        · cases h
  · rintro ⟨rfl, h⟩
    cases previous with
    | none =>
        obtain rfl : state = .queued := h
        rfl
    | some previous =>
        dsimp only at h ⊢
        rw [findState_toText h]

/-- How far an Action has come. -/
def VerificationActionJournalState.rank : VerificationActionJournalState → Nat
  | .queued => 0
  | .running => 1
  | .terminal => 2
  | .reused => 3
  | .invalidated => 4
  | .cancelled => 4

/-- A state that may stand somewhere behind another one. -/
def Before (a b : VerificationActionJournalState) : Prop := a.rank < b.rank ∨ (a = b ∧ (a = .running ∨ a = .reused))

instance (a b : VerificationActionJournalState) : Decidable (Before a b) := inferInstanceAs (Decidable (_ ∨ _))

theorem Before.trans {a b c : VerificationActionJournalState} (hab : Before a b) (hbc : Before b c) : Before a c := by
  rcases hab with hab | ⟨rfl, -⟩
  · rcases hbc with hbc | ⟨rfl, -⟩
    · exact .inl (hab.trans hbc)
    · exact .inl hab
  · exact hbc

theorem before_of_transition {a b : VerificationActionJournalState} (h : Transition (some a) b) : Before a b := by
  revert h
  cases a <;> cases b <;> decide

section Sha

variable [Sha256]

/-! ## Events -/

@[simp] theorem nullableTerminal_nullable (terminal : Option VerificationActionTerminal) :
    nullableTerminal (nullable VerificationActionTerminal.toValue terminal) = .ok terminal := by
  cases terminal with
  | none => rfl
  | some terminal => exact congrArg (Except.map some) (createVerificationActionTerminal_toValue terminal)

@[simp] theorem reparseAction_toValue (action : VerificationActionKey) : reparseAction action.toValue = .ok action := by
  rw [reparseAction, encode_written (written_action action), ok_bind, parseVerificationActionKey_render]

omit [Sha256] in
theorem written_nullable {α : Type} {toValue : α → Value} (h : ∀ a, Written (toValue a)) (a : Option α) :
    Written (nullable toValue a) := by
  cases a with
  | none => exact written_null
  | some a => exact h a

theorem written_event (event : VerificationActionJournalEvent) : Written event.toValue :=
  written_obj (by dsimp only [VerificationActionJournalEvent.members, List.map]; decide)
    (by simp [VerificationActionJournalEvent.members, written_action, written_nullable, written_terminal])

/-- The terminal of an event is one of its Action. -/
def TerminalBinds (terminal : Option VerificationActionTerminal) (actionKey : VerificationActionKeyDigest) : Prop :=
  ∀ t, terminal = some t → t.actionKey = actionKey ∧ ∀ object ∈ t.diagnosticObjects.val,
    object.receipt.val.subjectDigest = actionKey ∧ object.receipt.val.boundAttemptDigest = t.boundAttemptDigest

theorem terminalBinds_none (actionKey : VerificationActionKeyDigest) : TerminalBinds none actionKey := by
  intro t h
  cases h

theorem assertTerminalBindsAction_ok {terminal : Option VerificationActionTerminal}
    {actionKey : VerificationActionKeyDigest} {label : Text} :
    assertTerminalBindsAction terminal actionKey label = .ok () ↔ TerminalBinds terminal actionKey := by
  unfold assertTerminalBindsAction
  rw [check_bind_eq_ok, require_eq_ok, require_eq_ok]
  cases terminal with
  | none => simp [TerminalBinds]
  | some t => simp [TerminalBinds]

theorem assertStateTerminal_ok {state : VerificationActionJournalState} {terminal : Option VerificationActionTerminal}
    {label : Text} : assertStateTerminal state terminal label = .ok () ↔ terminal.isSome = state.carriesTerminal := by
  unfold assertStateTerminal
  rw [check_bind_eq_ok, require_eq_ok, require_eq_ok]
  cases terminal <;> cases state.carriesTerminal <;> simp

/-- What an event must say behind the events before it. -/
structure Follows (expected : VerificationActionKeyDigest) (before : List VerificationActionJournalEvent)
    (event : VerificationActionJournalEvent) : Prop where
  sequence : event.sequence = before.length + 1
  actionKey : event.actionKey = expected
  action : event.action.actionKey = expected
  transition : Transition (before.getLast?.map fun event => event.state) event.state
  chain : event.previousDigest = before.getLast?.map fun event => event.eventDigest
  terminal : TerminalBinds event.terminal expected
  carries : event.terminal.isSome = event.state.carriesTerminal

variable {actionKey : VerificationActionKeyDigest} {before events : List VerificationActionJournalEvent}
  {event : VerificationActionJournalEvent} {source line : Text}

theorem follows_of_validateEvent {candidate : Value}
    (h : validateEvent candidate actionKey before.getLast? (before.length + 1) = .ok event) :
    Follows actionKey before event := by
  cases candidate with
  | obj value =>
      unfold validateEvent validateEventMembers at h
      obtain ⟨-, h⟩ := check_bind_eq_ok.mp h
      obtain ⟨-, h⟩ := check_bind_eq_ok.mp h
      obtain ⟨-, h⟩ := check_bind_eq_ok.mp h
      obtain ⟨action, -, h⟩ := bind_eq_ok.mp h
      obtain ⟨haction, h⟩ := check_bind_eq_ok.mp h
      obtain ⟨stateValue, -, h⟩ := bind_eq_ok.mp h
      obtain ⟨state, hstate, h⟩ := bind_eq_ok.mp h
      obtain ⟨previousDigest, -, h⟩ := bind_eq_ok.mp h
      obtain ⟨hchain, h⟩ := check_bind_eq_ok.mp h
      obtain ⟨terminal, -, h⟩ := bind_eq_ok.mp h
      obtain ⟨hbinds, h⟩ := check_bind_eq_ok.mp h
      obtain ⟨hcarries, h⟩ := check_bind_eq_ok.mp h
      obtain ⟨recordedAt, -, h⟩ := bind_eq_ok.mp h
      obtain ⟨note, -, h⟩ := bind_eq_ok.mp h
      obtain ⟨-, h⟩ := check_bind_eq_ok.mp h
      cases h
      exact {
        sequence := rfl
        actionKey := rfl
        action := require_eq_ok.mp haction
        transition := (assertTransition_ok.mp hstate).2
        chain := (require_eq_ok.mp hchain).symm
        terminal := assertTerminalBindsAction_ok.mp hbinds
        carries := assertStateTerminal_ok.mp hcarries }
  | null | bool | num | str | arr => cases h

theorem validateEvent_toValue (h : Follows actionKey before event) :
    validateEvent event.toValue actionKey before.getLast? (before.length + 1) = .ok event := by
  have hstate := assertTransition_ok.mpr ⟨rfl, h.transition⟩
  show validateEventMembers event.members actionKey before.getLast? (before.length + 1) = _
  unfold validateEventMembers
  dsimp only
  rw [show member event.members "schema" = .str verificationActionJournalEventSchema from rfl, require, if_pos rfl, ok_bind,
    show member event.members "sequence" = natValue event.sequence from rfl, require, if_pos (by rw [h.sequence]), ok_bind,
    show member event.members "actionKey" = digestValue event.actionKey from rfl, require,
    if_pos (by rw [h.actionKey]), ok_bind, show member event.members "action" = event.action.toValue from rfl,
    reparseAction_toValue, ok_bind, require, if_pos h.action, ok_bind,
    show member event.members "state" = .str event.state.toText from rfl, assertState_toText, ok_bind, hstate, ok_bind,
    show member event.members "previousDigest" = nullable digestValue event.previousDigest from rfl,
    assertDigest_nullable, ok_bind, require, if_pos h.chain.symm, ok_bind,
    show member event.members "terminal" = nullable VerificationActionTerminal.toValue event.terminal from rfl,
    nullableTerminal_nullable, ok_bind, assertTerminalBindsAction_ok.mpr h.terminal, ok_bind,
    assertStateTerminal_ok.mpr h.carries, ok_bind,
    show member event.members "recordedAt" = .str event.recordedAt.val from rfl, assertIsoDate_val, ok_bind,
    show member event.members "note" = nullable (fun note : Note => .str note.val) event.note from rfl,
    assertNote_nullable, ok_bind,
    show member event.members "eventDigest" = digestValue event.eventDigest from rfl]
  obtain ⟨⟨sequence, key, action, state, recordedAt, terminal, note, previousDigest⟩, _, rfl⟩ := event
  obtain rfl : sequence = before.length + 1 := h.sequence
  obtain rfl : key = actionKey := h.actionKey
  rw [require, if_pos rfl]
  rfl

/-! ## Lines -/

theorem exactDocument_event (event : VerificationActionJournalEvent) (label : Text) :
    exactDocument (encodeCanonical event.toValue) label journalEventKeys = .ok event.toValue := by
  rw [encodeCanonical_written (written_event event)]
  exact exactDocument_written (written_event event) (by rfl) (by decide) label

theorem lineBreak_notMem_event (event : VerificationActionJournalEvent) : lineBreak ∉ encodeCanonical event.toValue := by
  rw [encodeCanonical_written (written_event event)]
  exact lineBreak_notMem_written (written_event event)

theorem readLine_ok : readLine actionKey before line = .ok events ↔
    ∃ event, events = before ++ [event] ∧ Follows actionKey before event ∧ line = encodeCanonical event.toValue := by
  unfold readLine
  constructor
  · intro h
    obtain ⟨parsed, -, h⟩ := bind_eq_ok.mp h
    obtain ⟨event, hevent, h⟩ := bind_eq_ok.mp h
    obtain ⟨hline, h⟩ := check_bind_eq_ok.mp h
    cases h
    exact ⟨event, rfl, follows_of_validateEvent hevent, require_eq_ok.mp hline⟩
  · rintro ⟨event, rfl, hfollows, rfl⟩
    dsimp only
    rw [exactDocument_event, ok_bind, validateEvent_toValue hfollows, ok_bind, require, if_pos rfl]
    rfl

/-! ## Whole journals -/

/-- Every event follows the ones before it. -/
def Chained (actionKey : VerificationActionKeyDigest) (events : List VerificationActionJournalEvent) : Prop :=
  EachAfter (Follows actionKey) events

def journalText (events : List VerificationActionJournalEvent) : Text := events.flatMap eventLine

theorem journalText_snoc : journalText (events ++ [event]) = journalText events ++ eventLine event := by
  simp [journalText]

theorem getLast?_journalText (h : events ≠ []) : (journalText events).getLast? = some lineBreak := by
  obtain ⟨init, last, rfl⟩ : ∃ init last, events = init ++ [last] :=
    ⟨events.dropLast, events.getLast h, (List.dropLast_append_getLast h).symm⟩
  rw [journalText_snoc, eventLine, ← List.append_assoc, List.getLast?_concat]

theorem splitAt_journalText (h : events ≠ []) :
    Text.splitAt lineBreak (journalText events).dropLast = events.map fun event => encodeCanonical event.toValue := by
  induction events using List.reverseRecOn with
  | nil => exact absurd rfl h
  | append_singleton init last ih =>
      rw [journalText_snoc, List.map_append]
      by_cases hinit : init = []
      · subst hinit
        rw [journalText, List.flatMap_nil, List.nil_append, eventLine, List.dropLast_concat,
          Text.splitAt_of_notMem (lineBreak_notMem_event last)]
        rfl
      · rw [eventLine, Text.splitAt_dropLast_append (getLast?_journalText hinit) (lineBreak_notMem_event last), ih hinit]
        rfl

theorem eventLine_ne_nil (event : VerificationActionJournalEvent) : eventLine event ≠ [] := by
  rw [eventLine]
  exact List.append_ne_nil_of_right_ne_nil _ (List.cons_ne_nil _ _)

theorem journalText_eq_nil : journalText events = [] ↔ events = [] := by
  cases events with
  | nil => simp [journalText]
  | cons event events => simp [journalText, eventLine_ne_nil]

theorem foldlM_readLine_ok {lines : List Text} : lines.foldlM (readLine actionKey) [] = .ok events ↔
    Chained actionKey events ∧ lines = events.map fun event => encodeCanonical event.toValue := by
  induction lines using List.reverseRecOn generalizing events with
  | nil =>
      constructor
      · intro h
        cases h
        exact ⟨.nil, rfl⟩
      · rintro ⟨-, h⟩
        rw [List.map_eq_nil_iff.mp h.symm]
        rfl
  | append_singleton lines line ih =>
      rw [List.foldlM_append, bind_eq_ok]
      constructor
      · rintro ⟨before, hbefore, hline⟩
        obtain ⟨hchained, hlines⟩ := ih.mp hbefore
        rw [List.foldlM_cons, bind_eq_ok] at hline
        obtain ⟨events', hline, hrest⟩ := hline
        cases hrest
        obtain ⟨event, rfl, hfollows, rfl⟩ := readLine_ok.mp hline
        exact ⟨hchained.snoc hfollows, by rw [hlines, List.map_append]; rfl⟩
      · rintro ⟨hchained, hlines⟩
        obtain ⟨before, event, rfl⟩ : ∃ before event, events = before ++ [event] := by
          have hne : events ≠ [] := by
            rintro rfl
            simp at hlines
          exact ⟨events.dropLast, events.getLast hne, (List.dropLast_append_getLast hne).symm⟩
        obtain ⟨hbefore, hfollows⟩ := eachAfter_snoc.mp hchained
        rw [List.map_append] at hlines
        obtain ⟨hlines, hline⟩ := List.append_inj' hlines rfl
        refine ⟨before, ih.mpr ⟨hbefore, hlines⟩, ?_⟩
        rw [List.foldlM_cons, readLine_ok.mpr ⟨event, rfl, hfollows, by simpa using hline⟩, ok_bind]
        rfl

/-- A text is the journal of one list of events only. -/
theorem journalText_injective {events' : List VerificationActionJournalEvent} (hchained : Chained actionKey events)
    (hchained' : Chained actionKey events') (h : journalText events = journalText events') : events = events' := by
  by_cases hnil : events = []
  · subst hnil
    exact (journalText_eq_nil.mp h.symm).symm
  · have hnil' : events' ≠ [] := by
      rintro rfl
      exact hnil (journalText_eq_nil.mp h)
    have hlines := splitAt_journalText hnil
    rw [h, splitAt_journalText hnil'] at hlines
    have hread := foldlM_readLine_ok.mpr ⟨hchained, rfl⟩
    rw [← hlines, foldlM_readLine_ok.mpr ⟨hchained', rfl⟩] at hread
    exact (Except.ok.inj hread).symm

/-- The reader accepts exactly the texts of chained events within the ceiling. -/
theorem parseJournalLines_ok : parseJournalLines actionKey source = .ok events ↔
    events ≠ [] ∧ events.length ≤ maximumEvents ∧ Chained actionKey events ∧ source = journalText events := by
  unfold parseJournalLines
  rw [check_bind_eq_ok, require_eq_ok]
  dsimp only
  rw [check_bind_eq_ok, require_eq_ok, foldlM_readLine_ok]
  constructor
  · rintro ⟨hlast, hlength, hchained, hlines⟩
    rw [hlines, List.length_map] at hlength
    have hne : events ≠ [] := by
      rintro rfl
      exact Text.splitAt_ne_nil _ _ hlines
    refine ⟨hne, hlength, hchained, ?_⟩
    have hinit : source.dropLast = (journalText events).dropLast := by
      rw [← Text.joinWith_splitAt lineBreak source.dropLast, ← Text.joinWith_splitAt lineBreak (journalText events).dropLast,
        hlines, splitAt_journalText hne]
    rw [← List.dropLast_append_getLast? _ hlast, hinit, List.dropLast_append_getLast? _ (getLast?_journalText hne)]
  · rintro ⟨hne, hlength, hchained, rfl⟩
    rw [splitAt_journalText hne, List.length_map]
    exact ⟨getLast?_journalText hne, hlength, hchained, rfl⟩

theorem parseJournalSource_ok {file : Option Text} {readback : VerificationActionJournalReadback} :
    parseJournalSource actionKey file = .ok readback ↔ readback = readbackOf readback.events ∧
      ((file = none ∧ readback.events = []) ∨ ∃ source, file = some source ∧
        parseJournalLines actionKey source = .ok readback.events) := by
  cases file with
  | none =>
      constructor
      · intro h
        cases h
        exact ⟨rfl, .inl ⟨rfl, rfl⟩⟩
      · rintro ⟨hreadback, ⟨-, hevents⟩ | ⟨source, h, -⟩⟩
        · rw [hreadback, hevents]
          rfl
        · cases h
  | some source =>
      rw [parseJournalSource, map_eq_ok]
      constructor
      · rintro ⟨events, hevents, rfl⟩
        exact ⟨rfl, .inr ⟨source, rfl, hevents⟩⟩
      · rintro ⟨hreadback, ⟨h, -⟩ | ⟨_, h, hevents⟩⟩
        · cases h
        · cases h
          exact ⟨_, hevents, hreadback.symm⟩

/-! ## States along a journal -/

/-- The states of a journal only go on. -/
theorem Chained.pairwise (h : Chained actionKey events) :
    events.Pairwise fun a b => Before a.state b.state := by
  induction events using List.reverseRecOn with
  | nil => exact .nil
  | append_singleton before event ih =>
      obtain ⟨hbefore, hfollows⟩ := eachAfter_snoc.mp h
      have hpairwise := ih hbefore
      refine List.pairwise_append.mpr ⟨hpairwise, List.pairwise_singleton _ _, fun a ha b hb => ?_⟩
      obtain rfl := List.mem_singleton.mp hb
      obtain ⟨init, last, rfl⟩ : ∃ init last, before = init ++ [last] :=
        ⟨before.dropLast, before.getLast (List.ne_nil_of_mem ha), (List.dropLast_append_getLast _).symm⟩
      have htransition := hfollows.transition
      rw [List.getLast?_concat] at htransition
      have hlast := before_of_transition htransition
      rcases List.mem_append.mp ha with ha | ha
      · exact ((List.pairwise_append.mp hpairwise).2.2 a ha last (List.mem_singleton_self _)).trans hlast
      · obtain rfl := List.mem_singleton.mp ha
        exact hlast

/-- A journal has one event at most of a state that cannot be repeated. -/
theorem Chained.unique (h : Chained actionKey events) {a b : VerificationActionJournalEvent} (ha : a ∈ events)
    (hb : b ∈ events) (hsame : a.state = b.state) (hstate : ¬Before a.state a.state) : a = b := by
  by_contra hne
  have happart : events.Pairwise fun x y => ¬(x.state = a.state ∧ y.state = a.state) := by
    refine h.pairwise.imp fun hxy hboth => ?_
    rw [hboth.1, hboth.2] at hxy
    exact hstate hxy
  have hsymm : Std.Symm fun x y : VerificationActionJournalEvent => ¬(x.state = a.state ∧ y.state = a.state) :=
    ⟨fun _ _ hxy hyx => hxy hyx.symm⟩
  exact happart.forall ha hb hne ⟨rfl, hsame.symm⟩

end Sha

/-! ## Claims -/

section Claims

variable {actionKey : VerificationActionKeyDigest} {claim : VerificationActionClaim}

theorem written_claim (claim : VerificationActionClaim) : Written claim.toValue :=
  written_obj (by dsimp only [VerificationActionClaim.members, List.map]; decide) fun m hm => by
    simp only [VerificationActionClaim.members, digestValue, List.mem_cons, List.not_mem_nil, or_false] at hm
    rcases hm with rfl | rfl | rfl | rfl | rfl <;> exact written_str _

/-- The text of a claim is the document of its members. -/
theorem parseCanonicalJournalDocument_claim (claim : VerificationActionClaim) (label : Text) :
    parseCanonicalJournalDocument claim.source label claimKeys = .ok claim.toValue := by
  have hencode := encodeCanonical_written (written_claim claim)
  have hbreak : lineBreak ∉ encodeCanonical claim.toValue := by
    rw [hencode]
    exact lineBreak_notMem_written (written_claim claim)
  have hlast : (encodeCanonical claim.toValue).getLast? ≠ some lineBreak := fun h => hbreak (List.mem_of_getLast? h)
  unfold parseCanonicalJournalDocument VerificationActionClaim.source
  rw [require, if_pos ⟨List.getLast?_concat, by rwa [List.dropLast_concat]⟩, ok_bind, List.dropLast_concat, hencode,
    show exactDocument (Json.render claim.toValue) label claimKeys = .ok claim.toValue from
      exactDocument_written (written_claim claim) (by rfl) (by decide) label, ok_bind,
    encode_written (written_claim claim), ok_bind, require, if_pos rfl]
  rfl

theorem assertIsoDate_str {value : Text} {time : IsoText} : assertIsoDate (.str value) = .ok time ↔ time.val = value :=
  checkedText_ok

theorem ownerToken_str {value : Text} {token : OwnerToken} : ownerToken (.str value) = .ok token ↔ token.val = value :=
  checkedText_ok

theorem parseClaimMembers_ok {claim' : VerificationActionClaim} :
    parseClaimMembers claim.members actionKey = .ok claim' ↔
      claim' = claim ∧ claim.actionKey = actionKey ∧ IsoDate.isTimestampText claim.expiresAt ∧
        claim.acquiredAt.val < claim.expiresAt := by
  unfold parseClaimMembers
  rw [show member claim.members "schema" = .str verificationActionClaimSchema from rfl,
    show member claim.members "actionKey" = digestValue claim.actionKey from rfl,
    show member claim.members "acquiredAt" = .str claim.acquiredAt.val from rfl,
    show member claim.members "expiresAt" = .str claim.expiresAt from rfl,
    show member claim.members "ownerToken" = .str claim.ownerToken.val from rfl, assertIsoDate_val, ownerToken_val]
  rw [check_bind_eq_ok, require_eq_ok, ok_bind, bind_eq_ok]
  simp only [check_bind_eq_ok, require_eq_ok, assertIsoDate_str, ok_bind, pure_eq_ok, Except.ok.injEq, true_and]
  constructor
  · rintro ⟨hkey, expiresAt, hexpires, hlt, rfl⟩
    obtain rfl : claim.actionKey = actionKey := Subtype.ext (Json.str.inj hkey)
    rw [hexpires] at hlt ⊢
    exact ⟨rfl, rfl, hexpires ▸ expiresAt.2, hlt⟩
  · rintro ⟨rfl, rfl, htimestamp, hlt⟩
    exact ⟨rfl, ⟨claim'.expiresAt, htimestamp⟩, rfl, hlt, rfl⟩

/-- A claim is read back exactly where its expiry is a timestamp behind its acquisition. -/
theorem parseClaim_source {claim' : VerificationActionClaim} : parseClaim claim.source actionKey = .ok claim' ↔
    claim' = claim ∧ claim.actionKey = actionKey ∧ IsoDate.isTimestampText claim.expiresAt ∧
      claim.acquiredAt.val < claim.expiresAt := by
  unfold parseClaim
  rw [parseCanonicalJournalDocument_claim, ok_bind]
  exact parseClaimMembers_ok

end Claims

end SecPlatform.VerificationAction
