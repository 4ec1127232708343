import SecPlatform.VerificationAction.Journal
import SecPlatform.VerificationAction.Lemmas.JournalGenerations

/-!
# What an append adds

An append that succeeds has extended the text of its one reading by one event that follows the events read.
-/

namespace SecPlatform.VerificationAction

open Contracts

variable [Sha256] {evidence : RetainedEvidence} {actionKey : VerificationActionKeyDigest}
  {file : Option RuntimeStateJournalRetainedText} {generation : JournalGeneration} {input : AppendInput actionKey}

theorem admitEvent_ok {current : VerificationActionJournalReadback} {state : VerificationActionJournalState}
    {terminal : Option VerificationActionTerminal} (h : admitEvent actionKey current input = .ok (state, terminal)) :
    current.recoveryDisposition = none ∧ state = input.state ∧
      Transition (current.events.getLast?.map fun event => event.state) state ∧
      nullableTerminal input.terminal = .ok terminal ∧ TerminalBinds terminal actionKey ∧
      terminal.isSome = state.carriesTerminal := by
  unfold admitEvent at h
  obtain ⟨hrecovery, h⟩ := check_bind_eq_ok.mp h
  obtain ⟨-, h⟩ := check_bind_eq_ok.mp h
  rw [assertState_toText, ok_bind] at h
  obtain ⟨next, hnext, h⟩ := bind_eq_ok.mp h
  obtain ⟨given, hgiven, h⟩ := bind_eq_ok.mp h
  obtain ⟨hbinds, h⟩ := check_bind_eq_ok.mp h
  obtain ⟨hcarries, h⟩ := check_bind_eq_ok.mp h
  cases h
  obtain ⟨hstate, htransition⟩ := assertTransition_ok.mp hnext
  exact ⟨require_eq_ok.mp hrecovery, (toText_injective (Json.str.inj hstate)).symm, htransition, hgiven,
    assertTerminalBindsAction_ok.mp hbinds, assertStateTerminal_ok.mp hcarries⟩

/-- Events that follow one another are counted by their sequence. -/
theorem sequence_getLast? {events : List VerificationActionJournalEvent} (h : Chained actionKey events) :
    (events.getLast?.map fun event => event.sequence).getD 0 = events.length := by
  induction events using List.reverseRecOn with
  | nil => rfl
  | append_singleton before event =>
      rw [List.getLast?_concat, List.length_append]
      exact (eachAfter_snoc.mp h).2.sequence

/-- An admitted event behind a reading. -/
structure Appends (actionKey : VerificationActionKeyDigest) (generation : JournalGeneration)
    (input : AppendInput actionKey) (event : VerificationActionJournalEvent) : Prop where
  recovery : generation.readback.recoveryDisposition = none
  follows : Follows actionKey generation.readback.events event
  state : event.state = input.state
  terminal : nullableTerminal input.terminal = .ok event.terminal

/-- The event of an append, where its state may stand and its terminal is one of the Action. -/
theorem follows_newEvent {action : VerificationActionKey} {current : VerificationActionJournalReadback}
    {state : VerificationActionJournalState} {terminal : Option VerificationActionTerminal}
    (haction : action.actionKey = actionKey) (hchained : Chained actionKey current.events)
    (htransition : Transition (current.events.getLast?.map fun event => event.state) state)
    (hbinds : TerminalBinds terminal actionKey) (hcarries : terminal.isSome = state.carriesTerminal)
    (recordedAt : IsoText) (note : Option Note) :
    Follows actionKey current.events (newEvent action current state terminal recordedAt note).signed where
  sequence := congrArg (· + 1) (sequence_getLast? hchained)
  actionKey := haction
  action := haction
  transition := htransition
  chain := rfl
  terminal := hbinds
  carries := hcarries

theorem appends_newEvent {state : VerificationActionJournalState} {terminal : Option VerificationActionTerminal}
    (h : admitEvent actionKey generation.readback input = .ok (state, terminal))
    (hchained : Chained actionKey generation.readback.events) (recordedAt : IsoText) (note : Option Note) :
    Appends actionKey generation input
      (newEvent input.action generation.readback state terminal recordedAt note).signed := by
  obtain ⟨hrecovery, hstate, htransition, hterminal, hbinds, hcarries⟩ := admitEvent_ok h
  exact ⟨hrecovery, follows_newEvent input.action.2 hchained htransition hbinds hcarries recordedAt note, hstate, hterminal⟩

/-! ## An append alone -/

variable [LocaleText] {i : Nat} {s s' : ActionFiles}

omit [Sha256] [LocaleText] in
theorem alone_attempt {k : FileRequest} {value : FileValue k} :
    Alone performFile i s (attempt k) s' (.ok value) ↔ effect i s k value s' := by
  unfold attempt
  rw [alone_bind_ok]
  constructor
  · rintro ⟨answer, s₁, hask, hresult⟩
    obtain ⟨given, hgiven, hperform⟩ := alone_ask.mp hask
    obtain ⟨rfl, rfl⟩ := alone_result.mp hresult
    rwa [← Except.ok.inj hgiven] at hperform
  · intro h
    exact ⟨.ok value, s', alone_ask.mpr ⟨_, rfl, h⟩, alone_result.mpr ⟨rfl, rfl⟩⟩

theorem alone_readGeneration {files : ActionFiles} :
    Alone performFile i s (readGeneration evidence actionKey) files (.ok generation) ↔
      files = s ∧ readVerificationActionJournalGeneration evidence actionKey s.journal = .ok generation := by
  unfold readGeneration
  rw [alone_bind_ok]
  constructor
  · rintro ⟨file, s₁, hobserve, hresult⟩
    obtain ⟨rfl, rfl⟩ := alone_attempt.mp hobserve
    obtain ⟨rfl, h⟩ := alone_result.mp hresult
    exact ⟨rfl, h.symm⟩
  · rintro ⟨rfl, h⟩
    exact ⟨files.journal, files, alone_attempt.mpr ⟨rfl, rfl⟩, alone_result.mpr ⟨rfl, h.symm⟩⟩

omit [Sha256] [LocaleText] in
theorem alone_recordedAtOrNow {recordedAt : Option Text} {value : Text} {files : ActionFiles}
    (h : Alone performFile i s (recordedAtOrNow recordedAt) files (.ok value)) : files = s := by
  unfold recordedAtOrNow at h
  split at h
  · exact (alone_pure.mp h).1
  · exact alone_attempt.mp h

/-- The files behind an append. -/
def appended (i : Nat) (files : ActionFiles) (source line : Text) (physical : PhysicalIdentity) : ActionFiles :=
  { files with
    journal := some ⟨source ++ line, physical⟩
    creator := if files.journal = none then some i else files.creator }

/-- What an append that succeeds has read and written. -/
theorem alone_append {event : VerificationActionJournalEvent}
    (h : Alone performFile i s (appendVerificationActionJournalEvent evidence input) s' (.ok event)) :
    ∃ generation, readVerificationActionJournalGeneration evidence actionKey s.journal = .ok generation ∧
      Appends actionKey generation input event ∧ s.journalText.getD [] = generation.source.getD [] ∧
      ∃ physical, s' = appended i s (generation.source.getD []) (eventLine event) physical := by
  unfold appendVerificationActionJournalEvent at h
  obtain ⟨action, s₁, haction, h₁⟩ := alone_bind_ok.mp h
  rw [reparseAction_toValue] at haction
  obtain ⟨rfl, hparsed⟩ := alone_result.mp haction
  obtain rfl := Except.ok.inj hparsed
  rw [input.action.2] at h₁
  obtain ⟨generation, s₂, hgeneration, h₂⟩ := alone_bind_ok.mp h₁
  obtain ⟨rfl, hread⟩ := alone_readGeneration.mp hgeneration
  obtain ⟨⟨state, terminal⟩, s₃, hadmitted, h₃⟩ := alone_bind_ok.mp h₂
  obtain ⟨rfl, hadmits⟩ := alone_result.mp hadmitted
  obtain ⟨recordedAtText, s₄, hclock, h₄⟩ := alone_bind_ok.mp h₃
  obtain rfl := alone_recordedAtOrNow hclock
  obtain ⟨recordedAt, s₅, hrecordedAt, h₅⟩ := alone_bind_ok.mp h₄
  obtain ⟨rfl, -⟩ := alone_result.mp hrecordedAt
  obtain ⟨note, s₆, hnote, h₆⟩ := alone_bind_ok.mp h₅
  obtain ⟨rfl, -⟩ := alone_result.mp hnote
  obtain ⟨_, s₇, hensure, h₇⟩ := alone_bind_ok.mp h₆
  obtain rfl := alone_attempt.mp hensure
  obtain ⟨done, s₈, hwrite, h₈⟩ := alone_bind_ok.mp h₇
  rcases alone_attempt.mp hwrite with ⟨rfl, hsame, physical, rfl⟩ | ⟨rfl, rfl⟩
  · obtain ⟨rfl, hevent⟩ := alone_pure.mp h₈
    obtain rfl := Except.ok.inj hevent
    have hchained := (reads_of_readGeneration hread (admitEvent_ok hadmits.symm).1).chained
    exact ⟨generation, hread, appends_newEvent hadmits.symm hchained recordedAt note, hsame, physical, rfl⟩
  · obtain ⟨-, hthrow⟩ := alone_done.mp h₈
    cases hthrow

/-- An admitted append with a time and a note of its own succeeds on a file that it has read. -/
theorem alone_append_of {state : VerificationActionJournalState} {terminal : Option VerificationActionTerminal}
    {recordedAt : IsoText} {note : Option Note}
    (hread : readVerificationActionJournalGeneration evidence actionKey s.journal = .ok generation)
    (hadmits : admitEvent actionKey generation.readback input = .ok (state, terminal))
    (hrecordedAt : input.recordedAt = some recordedAt.val) (hnote : input.note = note.map fun note => note.val)
    (physical : PhysicalIdentity) :
    let event := (newEvent input.action generation.readback state terminal recordedAt note).signed
    Alone performFile i s (appendVerificationActionJournalEvent evidence input)
      (appended i s (generation.source.getD []) (eventLine event) physical) (.ok event) := by
  intro event
  have hreads := reads_of_readGeneration hread (admitEvent_ok hadmits).1
  have hnull : nullable Json.str input.note = nullable (fun note : Note => .str note.val) note := by
    rw [hnote]
    cases note <;> rfl
  unfold appendVerificationActionJournalEvent
  refine alone_bind_ok.mpr ⟨input.action, s, alone_result.mpr ⟨rfl, (reparseAction_toValue _).symm⟩, ?_⟩
  rw [input.action.2]
  refine alone_bind_ok.mpr ⟨generation, s, alone_readGeneration.mpr ⟨rfl, hread⟩, ?_⟩
  refine alone_bind_ok.mpr ⟨(state, terminal), s, alone_result.mpr ⟨rfl, hadmits.symm⟩, ?_⟩
  refine alone_bind_ok.mpr ⟨recordedAt.val, s, ?_, ?_⟩
  · rw [hrecordedAt]
    exact alone_pure.mpr ⟨rfl, rfl⟩
  refine alone_bind_ok.mpr ⟨recordedAt, s, alone_result.mpr ⟨rfl, (assertIsoDate_val _).symm⟩, ?_⟩
  refine alone_bind_ok.mpr ⟨note, s, alone_result.mpr ⟨rfl, by rw [hnull, assertNote_nullable]⟩, ?_⟩
  refine alone_bind_ok.mpr ⟨(), s, alone_attempt.mpr rfl, ?_⟩
  refine alone_bind_ok.mpr ⟨true, _, alone_attempt.mpr (.inl ⟨rfl, ?_, physical, rfl⟩), alone_pure.mpr ⟨rfl, rfl⟩⟩
  rw [hreads.source]
  rfl

end SecPlatform.VerificationAction
