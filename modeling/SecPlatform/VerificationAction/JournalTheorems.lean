import SecPlatform.DurableExecution.Lemmas.RecordSize
import SecPlatform.VerificationAction.Lemmas.Append

/-!
# Whether a journal can be read again

An append looks at the last event only; the reader has limits for the whole file, and a file that a migration
has frozen must not grow at all. Nothing ties the terminal of a reused event to the one that was committed.
-/

namespace SecPlatform.VerificationAction

open Contracts

section Readable

variable [Sha256] [LocaleText]

/-! ## Reading what was appended -/

/-- The reader of the journal accepts the file. -/
def Readable (evidence : RetainedEvidence) (actionKey : VerificationActionKeyDigest)
    (file : Option RuntimeStateJournalRetainedText) : Prop :=
  Succeeds (readVerificationActionJournalGeneration evidence actionKey file)

/-- The file can take one more line: the lines are fewer than the ceiling, the bytes stay within the limit, and no
intent of a migration is left beside the journal. -/
def HasRoom (evidence : RetainedEvidence) (source line : Text) : Prop :=
  evidence.intent = none ∧ source.count lineBreak < maximumEvents ∧ (source ++ line).utf8Length ≤ maximumBytes

omit [LocaleText] in
theorem count_journalText (events : List VerificationActionJournalEvent) :
    (journalText events).count lineBreak = events.length := by
  induction events using List.reverseRecOn with
  | nil => rfl
  | append_singleton before event ih =>
      rw [journalText_snoc, List.count_append, ih, eventLine, List.count_append,
        List.count_eq_zero.mpr (lineBreak_notMem_event event), List.length_append]
      rfl

variable {evidence : RetainedEvidence} {actionKey : VerificationActionKeyDigest} {i : Nat} {files files' : ActionFiles}
  {input : AppendInput actionKey} {event : VerificationActionJournalEvent}

/-- After an append that succeeded the journal is read again exactly when the file had room for the line. -/
theorem readable_append (h : Alone performFile i files (appendVerificationActionJournalEvent evidence input) files'
      (.ok event)) :
    Readable evidence actionKey files'.journal ↔
      HasRoom evidence (files.journalText.getD []) (eventLine event) := by
  obtain ⟨generation, hread, happends, hsource, physical, rfl⟩ := alone_append h
  have hreads := reads_of_readGeneration hread happends.recovery
  have hcount : (files.journalText.getD []).count lineBreak = generation.readback.events.length := by
    rw [hsource, hreads.source, hreads.text]
    split
    · rename_i hnil
      rw [hnil]
      rfl
    · exact count_journalText _
  rw [HasRoom, hcount, hsource]
  exact readGeneration_append hread happends.recovery happends.follows physical

end Readable

/-! ## A full journal -/

section FullJournal

/-- Any hash will do: no step of the counterexamples rests on its values. -/
local instance someSha256 : Sha256 :=
  ⟨fun _ => ⟨Text.ofString "sha256:" ++ List.replicate 64 (unit '0'), isDigest_zeros⟩⟩

local instance someLocaleText : LocaleText := ⟨fun _ _ => .eq⟩

def someDigest : Digest := Sha256.rawSha256 []

def someText : BoundedText := ⟨Text.ofString "a", by decide⟩

def someKeyInput : VerificationActionKeyInput where
  actionKind := someText
  producer := ⟨someText, someText⟩
  operation := ⟨someText, someText, someDigest, ⟨Text.ofString ".", by decide⟩, ⟨[], by decide, .nil⟩⟩
  inputClosure := ⟨[], by decide, .nil⟩
  environment := ⟨someText, someText, someText⟩
  requiredCheapPreflightActionKeys := ⟨[], by decide, .nil⟩
  upstreamActionKeys := ⟨[], by decide, .nil⟩
  resultSchemaRevision := someText
  apart := nofun

def someAction : VerificationActionKey := ⟨someKeyInput, keyDigest someKeyInput, rfl⟩

def someTime : IsoText := ⟨Text.ofString "2026-01-01T00:00:00.000Z", by decide⟩

/-- No file of an earlier layout is left. -/
def noEvidence : RetainedEvidence := ⟨none, none, none, fun _ => none⟩

def somePhysical : PhysicalIdentity := ⟨Text.ofString "1", Text.ofString "1"⟩

/-- One more event of a state behind these. -/
def extended (events : List VerificationActionJournalEvent) (state : VerificationActionJournalState)
    (terminal : Option VerificationActionTerminal) : List VerificationActionJournalEvent :=
  events ++ [(newEvent someAction (readbackOf events) state terminal someTime none).signed]

theorem chained_extended {events : List VerificationActionJournalEvent} {state : VerificationActionJournalState}
    {terminal : Option VerificationActionTerminal} (h : Chained someAction.actionKey events)
    (htransition : Transition (events.getLast?.map fun event => event.state) state)
    (hbinds : TerminalBinds terminal someAction.actionKey) (hcarries : terminal.isSome = state.carriesTerminal) :
    Chained someAction.actionKey (extended events state terminal) := by
  have hfollows : Follows someAction.actionKey (readbackOf events).events
      (newEvent someAction (readbackOf events) state terminal someTime none).signed :=
    follows_newEvent rfl h htransition hbinds hcarries someTime none
  exact h.snoc hfollows

/-- `queued`, and then `running` as often as it takes. -/
def runningJournal : Nat → List VerificationActionJournalEvent
  | 0 => []
  | 1 => extended [] .queued none
  | n + 2 => extended (runningJournal (n + 1)) .running none

theorem length_runningJournal (n : Nat) : (runningJournal n).length = n := by
  fun_induction runningJournal n with
  | case1 | case2 => rfl
  | case3 n ih => rw [extended, List.length_append, ih, List.length_singleton]

theorem chained_runningJournal (n : Nat) : Chained someAction.actionKey (runningJournal n) ∧
    (runningJournal n).getLast?.map (fun event => event.state) =
      match n with
      | 0 => none
      | 1 => some .queued
      | _ => some .running := by
  fun_induction runningJournal n with
  | case1 => exact ⟨.nil, rfl⟩
  | case2 => exact ⟨chained_extended .nil rfl (terminalBinds_none _) rfl, rfl⟩
  | case3 n ih =>
      refine ⟨chained_extended ih.1 ?_ (terminalBinds_none _) rfl, by rw [extended, List.getLast?_concat]; rfl⟩
      rw [ih.2]
      cases n with
      | zero => decide
      | succ n =>
          show Transition (some .running) .running
          decide

/-! ### Its size -/

/-- The text of a value is ASCII and within a length. -/
def Within (limit : Nat) (value : Value) : Prop := (Json.render value).IsAscii ∧ (Json.render value).length ≤ limit

theorem within_str {t : Text} {limit : Nat} (h : Json.Plain t) (hlength : t.length + 2 ≤ limit) : Within limit (.str t) :=
  ⟨h.isAscii_quoted, by rwa [Json.render, h.length_quoted]⟩

theorem within_digest (d : Digest) : Within 73 (digestValue d) :=
  within_str (DurableExecution.plain_digest d) (by rw [DurableExecution.length_digest])

theorem Within.mono {value : Value} {m n : Nat} (h : Within m value) (hle : m ≤ n) : Within n value :=
  ⟨h.1, h.2.trans hle⟩

theorem within_null : Within 4 .null := by
  have hnull : Json.Plain (Json.render (.null : Value)) := by decide
  exact ⟨hnull.isAscii, le_rfl⟩

theorem within_nullable {α : Type} {toValue : α → Value} {limit : Nat} (hlimit : 4 ≤ limit)
    (h : ∀ a, Within limit (toValue a)) (a : Option α) : Within limit (nullable toValue a) := by
  cases a with
  | none => exact within_null.mono hlimit
  | some a => exact h a

theorem within_state (state : VerificationActionJournalState) : Within 73 (.str state.toText) := by
  cases state <;> exact within_str (by decide) (by decide)

theorem within_sequence {n : Nat} (h : n < 10 ^ 4) : Within 73 (natValue n) :=
  ⟨Json.isAscii_renderNumber_ofNat (h.trans (by decide)),
    (Json.length_renderNumber_ofNat (by decide) (by decide) h).trans (by decide)⟩

theorem within_someAction : Within 600 someAction.toValue := by
  have hascii : (Json.render someAction.toValue).all (· < 0x80) = true := by decide +kernel
  exact ⟨fun c hc => of_decide_eq_true (List.all_eq_true.mp hascii c hc), by decide +kernel⟩

/-- Every line is well below the bytes that each of the events may take on average. -/
theorem within_event {event : VerificationActionJournalEvent} (haction : event.action = someAction)
    (hsequence : event.sequence < 10 ^ 4) (hrecordedAt : event.recordedAt = someTime)
    (hterminal : Within 600 (nullable VerificationActionTerminal.toValue event.terminal)) (hnote : event.note = none) :
    Within 2100 event.toValue := by
  have hkeys : ∀ k ∈ event.members.map Prod.fst, Json.Plain k ∧ (Json.quoted k).length ≤ 20 :=
    DurableExecution.plain_of_all _ (by dsimp only [VerificationActionJournalEvent.members, List.map]; decide)
  have htime : Within 73 (.str someTime.val) := within_str (by decide) (by decide)
  have hschema : Within 73 (.str verificationActionJournalEventSchema) := within_str (by decide) (by decide)
  have hnone : Within 73 .null := within_null.mono (by decide)
  have hprevious := within_nullable (by decide) within_digest event.previousDigest
  have hkey := within_digest event.actionKey
  have hdigest := within_digest event.eventDigest
  have hcount := within_sequence hsequence
  have hstate := within_state event.state
  have hvalues : ∀ m ∈ event.members, (Json.render m.2).IsAscii := by
    simp only [VerificationActionJournalEvent.members, haction, hrecordedAt, hnote, nullable, List.forall_mem_cons]
    exact ⟨within_someAction.1, hkey.1, hdigest.1, hnone.1, hprevious.1, htime.1, hschema.1, hcount.1, hstate.1,
      hterminal.1, nofun⟩
  refine ⟨Json.isAscii_render_obj fun m hm => ⟨(hkeys _ (List.mem_map_of_mem hm)).1.isAscii_quoted, hvalues m hm⟩, ?_⟩
  have hsum := Json.length_render_obj event.members
  have haction' := within_someAction.2
  have hlengths : ∀ k ∈ event.members.map Prod.fst, (Json.quoted k).length ≤ 20 := fun k hk => (hkeys k hk).2
  simp only [VerificationActionJournalEvent.members, haction, hrecordedAt, hnote, nullable, List.map_cons, List.map_nil,
    List.sum_cons, List.sum_nil, Json.memberSize, List.forall_mem_cons] at hsum hlengths
  simp only [VerificationActionJournalEvent.toValue, VerificationActionJournalEvent.members, haction, hrecordedAt, hnote,
    nullable]
  obtain ⟨h₁, h₂, h₃, h₄, h₅, h₆, h₇, h₈, h₉, h₁₀, -⟩ := hlengths
  have hsizes := And.intro hkey.2 (And.intro hdigest.2 (And.intro hnone.2 (And.intro hprevious.2 (And.intro htime.2
    (And.intro hschema.2 (And.intro hcount.2 (And.intro hstate.2 hterminal.2)))))))
  unfold nullable at hsizes
  omega

theorem within_last {events : List VerificationActionJournalEvent} (hchained : Chained someAction.actionKey events)
    (hlength : events.length < maximumEvents) (state : VerificationActionJournalState)
    {terminal : Option VerificationActionTerminal}
    (hterminal : Within 600 (nullable VerificationActionTerminal.toValue terminal)) :
    Within 2100 (newEvent someAction (readbackOf events) state terminal someTime none).signed.toValue := by
  refine within_event rfl ?_ rfl hterminal rfl
  have hsequence : (newEvent someAction (readbackOf events) state terminal someTime none).sequence = events.length + 1 :=
    congrArg (· + 1) (sequence_getLast? hchained)
  rw [UnsignedEvent.signed, hsequence]
  exact lt_of_le_of_lt hlength (by decide)

theorem within_runningJournal {n : Nat} (hn : n ≤ maximumEvents) :
    ∀ event ∈ runningJournal n, Within 2100 event.toValue := by
  have hnone : Within 600 .null := within_null.mono (by decide)
  fun_induction runningJournal n with
  | case1 => exact List.forall_mem_nil _
  | case2 => exact List.forall_mem_singleton.mpr (within_last .nil (by decide) _ hnone)
  | case3 n ih =>
      refine List.forall_mem_append.mpr ⟨ih (Nat.le_of_succ_le hn), List.forall_mem_singleton.mpr ?_⟩
      exact within_last (chained_runningJournal (n + 1)).1 (by rwa [length_runningJournal]) _ hnone

theorem utf8Length_journalText {events : List VerificationActionJournalEvent} {limit : Nat}
    (h : ∀ event ∈ events, Within limit event.toValue) :
    (journalText events).utf8Length ≤ events.length * (limit + 1) := by
  have hboth : (journalText events).IsAscii ∧ (journalText events).length ≤ events.length * (limit + 1) := by
    induction events using List.reverseRecOn with
    | nil => exact ⟨List.forall_mem_nil _, Nat.zero_le _⟩
    | append_singleton before event ih =>
        obtain ⟨hascii, hlength⟩ := ih fun e he => h e (List.mem_append_left _ he)
        obtain ⟨hevent, hsize⟩ := h event (List.mem_append_right _ (List.mem_singleton_self _))
        rw [← encodeCanonical_written (written_event event)] at hevent hsize
        rw [journalText_snoc, eventLine]
        have hbreak : Text.IsAscii [lineBreak] := List.forall_mem_singleton.mpr (by decide)
        refine ⟨hascii.append (hevent.append hbreak), ?_⟩
        simp only [List.length_append, List.length_singleton]
        rw [Nat.add_mul]
        omega
  rw [Text.utf8Length_of_isAscii hboth.1]
  exact hboth.2

/-! ### One event more -/

/-- The files where the journal holds these events. -/
def journalFiles (events : List VerificationActionJournalEvent) : ActionFiles :=
  ⟨some ⟨journalText events, somePhysical⟩, none, none, none⟩

/-- A journal of short events within the ceiling is read. -/
theorem readGeneration_of_within {file : Option RuntimeStateJournalRetainedText}
    {events : List VerificationActionJournalEvent}
    (htext : file.map (fun retained => retained.text) = if events = [] then none else some (journalText events))
    (hlength : events.length ≤ maximumEvents) (hchained : Chained someAction.actionKey events)
    (hwithin : ∀ event ∈ events, Within 2100 event.toValue) :
    readVerificationActionJournalGeneration noEvidence someAction.actionKey file =
      .ok ⟨readbackOf events, file.map fun retained => retained.text⟩ := by
  split at htext
  · rename_i hnil
    rw [Option.map_eq_none_iff.mp htext, hnil]
    rfl
  · rename_i hne
    obtain ⟨retained, hretained, hsource⟩ := Option.map_eq_some_iff.mp htext
    have hbytes : retained.byteLength ≤ maximumBytes := by
      rw [RuntimeStateJournalRetainedText.byteLength, hsource]
      exact (utf8Length_journalText hwithin).trans ((Nat.mul_le_mul_right _ hlength).trans (by decide))
    rw [hretained]
    refine (readGeneration_ok rfl).mpr ⟨fun _ h => by rwa [← Option.some.inj h], nofun, ?_⟩
    exact presentGeneration_ok.mpr ⟨assertCutover_none.mpr rfl, events,
      parseJournalLines_ok.mpr ⟨hne, hlength, hchained, hsource⟩, rfl⟩

theorem readGeneration_journalFiles {events : List VerificationActionJournalEvent} (hne : events ≠ [])
    (hlength : events.length ≤ maximumEvents) (hchained : Chained someAction.actionKey events)
    (hwithin : ∀ event ∈ events, Within 2100 event.toValue) :
    readVerificationActionJournalGeneration noEvidence someAction.actionKey (journalFiles events).journal =
      .ok ⟨readbackOf events, some (journalText events)⟩ :=
  readGeneration_of_within (if_neg hne).symm hlength hchained hwithin

theorem admitEvent_of {events : List VerificationActionJournalEvent} {state : VerificationActionJournalState}
    {input : AppendInput someAction.actionKey} {terminal : Option VerificationActionTerminal}
    (hchained : Chained someAction.actionKey events) (hstate : input.state = state)
    (htransition : Transition (events.getLast?.map fun event => event.state) state)
    (hterminal : input.terminal = nullable VerificationActionTerminal.toValue terminal)
    (hbinds : TerminalBinds terminal someAction.actionKey) (hcarries : terminal.isSome = state.carriesTerminal) :
    admitEvent someAction.actionKey (readbackOf events) input = .ok (state, terminal) := by
  have haction : (readbackOf events).action.all fun action => action.actionKey = someAction.actionKey := by
    cases hevents : events with
    | nil => rfl
    | cons event rest =>
        subst hevents
        have hfollows := hchained [] event rest rfl
        simpa [readbackOf] using hfollows.action
  have hnext : assertTransition ((readbackOf events).events.getLast?.map fun event => event.state)
      (.str state.toText) = .ok state := assertTransition_ok.mpr ⟨rfl, htransition⟩
  unfold admitEvent
  rw [require, if_pos (show (readbackOf events).recoveryDisposition = none from rfl), ok_bind, require, if_pos haction, ok_bind, assertState_toText, ok_bind, hstate,
    hnext, ok_bind, hterminal, nullableTerminal_nullable, ok_bind,
    assertTerminalBindsAction_ok.mpr hbinds, ok_bind, assertStateTerminal_ok.mpr hcarries, ok_bind]
  rfl

/-- One event more for the sample Action. -/
def someInput (state : VerificationActionJournalState) (terminal : Option VerificationActionTerminal) :
    AppendInput someAction.actionKey :=
  ⟨⟨someAction, rfl⟩, state, some someTime.val, nullable VerificationActionTerminal.toValue terminal, none⟩

/-- A chained event can be appended to a journal that is read. -/
theorem alone_journalFiles {events : List VerificationActionJournalEvent} {state : VerificationActionJournalState}
    {terminal : Option VerificationActionTerminal} {files : ActionFiles}
    (hread : readVerificationActionJournalGeneration noEvidence someAction.actionKey files.journal =
      .ok ⟨readbackOf events, files.journalText⟩) (hchained : Chained someAction.actionKey events)
    (htransition : Transition (events.getLast?.map fun event => event.state) state)
    (hbinds : TerminalBinds terminal someAction.actionKey) (hcarries : terminal.isSome = state.carriesTerminal) (i : Nat) :
    let event := (newEvent someAction (readbackOf events) state terminal someTime none).signed
    Alone performFile i files (appendVerificationActionJournalEvent noEvidence (someInput state terminal))
      (appended i files (files.journalText.getD []) (eventLine event) somePhysical) (.ok event) :=
  alone_append_of hread (admitEvent_of hchained rfl htransition rfl hbinds hcarries) rfl rfl somePhysical

theorem readable_append_first : ∃ files' event,
    Alone performFile 0 ⟨none, none, none, none⟩
      (appendVerificationActionJournalEvent noEvidence (someInput .queued none)) files' (.ok event) ∧
    (Readable noEvidence someAction.actionKey files'.journal ↔ HasRoom noEvidence [] (eventLine event)) := by
  have hread : readVerificationActionJournalGeneration noEvidence someAction.actionKey none =
      .ok ⟨readbackOf [], none⟩ := rfl
  have halone : Alone performFile 0 ⟨none, none, none, none⟩ _ _ _ :=
    alone_journalFiles hread .nil rfl (terminalBinds_none _) rfl 0
  exact ⟨_, _, halone, readable_append halone⟩

/-- A running Action may say once more that it runs. -/
theorem alone_runningJournal {n : Nat} (hn : n + 2 ≤ maximumEvents) :
    Readable noEvidence someAction.actionKey (journalFiles (runningJournal (n + 2))).journal ∧ ∃ files' event,
      Alone performFile 0 (journalFiles (runningJournal (n + 2)))
        (appendVerificationActionJournalEvent noEvidence (someInput .running none)) files' (.ok event) := by
  obtain ⟨hchained, hlast⟩ := chained_runningJournal (n + 2)
  have hlength := length_runningJournal (n + 2)
  have hne : runningJournal (n + 2) ≠ [] := by
    intro h
    rw [h] at hlength
    cases hlength
  have hread := readGeneration_journalFiles hne (hlength.le.trans hn) hchained (within_runningJournal hn)
  have htransition : Transition ((runningJournal (n + 2)).getLast?.map fun event => event.state) .running := by
    rw [hlast]
    show Transition (some .running) .running
    decide
  exact ⟨⟨_, hread⟩, _, _, alone_journalFiles hread hchained htransition (terminalBinds_none _) rfl 0⟩

/-- The journal can be read, an append to it succeeds, and it can be read no more. -/
theorem not_readable_append_full : ∃ files files' event,
    Readable noEvidence someAction.actionKey files.journal ∧
    Alone performFile 0 files (appendVerificationActionJournalEvent noEvidence (someInput .running none)) files'
      (.ok event) ∧ ¬Readable noEvidence someAction.actionKey files'.journal := by
  obtain ⟨n, hn⟩ : ∃ n, n + 2 = maximumEvents := ⟨4094, rfl⟩
  obtain ⟨hreadable, files', event, halone⟩ := alone_runningJournal hn.le
  refine ⟨_, _, _, hreadable, halone, fun hreadable' => ?_⟩
  obtain ⟨-, hcount, -⟩ := (readable_append halone).mp hreadable'
  change (journalText (runningJournal (n + 2))).count lineBreak < maximumEvents at hcount
  rw [count_journalText, length_runningJournal, hn] at hcount
  exact lt_irrefl _ hcount

end FullJournal

/-! ## One result -/

section Result

variable [Sha256]

/-- Every reused event carries the terminal that was committed. -/
def OneResult (events : List VerificationActionJournalEvent) : Prop :=
  ∀ committed ∈ events, committed.state = .terminal → ∀ reused ∈ events, reused.state = .reused →
    reused.terminal = committed.terminal

variable {actionKey : VerificationActionKeyDigest} {events : List VerificationActionJournalEvent}
  {event : VerificationActionJournalEvent}

theorem OneResult.of_append {later : List VerificationActionJournalEvent} (h : OneResult (events ++ later)) :
    OneResult events :=
  fun c hc hstate r hr => h c (List.mem_append_left _ hc) hstate r (List.mem_append_left _ hr)

/-- A journal that has carried a terminal so far has one committed terminal, and no other one yet if it is the last. -/
theorem exists_committed (h : Chained actionKey events) {last : VerificationActionJournalEvent}
    (hlast : events.getLast? = some last) (hcarries : last.state.carriesTerminal) :
    ∃ committed ∈ events, committed.state = .terminal := by
  induction events using List.reverseRecOn generalizing last with
  | nil => cases hlast
  | append_singleton before event ih =>
      rw [List.getLast?_concat] at hlast
      obtain rfl := Option.some.inj hlast
      by_cases hterminal : event.state = .terminal
      · exact ⟨event, by simp, hterminal⟩
      · obtain ⟨hbefore, hfollows⟩ := eachAfter_snoc.mp h
        have hreused : event.state = .reused := by
          simpa [VerificationActionJournalState.carriesTerminal, hterminal] using hcarries
        have htransition := hfollows.transition
        rw [hreused] at htransition
        cases hprevious : before.getLast? with
        | none =>
            rw [hprevious] at htransition
            cases htransition
        | some previous =>
            rw [hprevious] at htransition
            have hcarries : previous.state.carriesTerminal := by
              revert htransition
              rw [Option.map_some]
              cases previous.state <;> decide
            obtain ⟨committed, hmem, hstate⟩ := ih hbefore hprevious hcarries
            exact ⟨committed, List.mem_append_left _ hmem, hstate⟩

theorem readbackOf_terminal {last : VerificationActionJournalEvent} (hlast : events.getLast? = some last) :
    (readbackOf events).terminal = if last.state.carriesTerminal then last.terminal else none := by
  unfold readbackOf
  dsimp only
  rw [hlast, Option.filter_some]
  split <;> rfl

/-- What the readback exposes is the committed terminal. -/
theorem OneResult.exposed (h : OneResult events) (hchained : Chained actionKey events)
    {committed : VerificationActionJournalEvent} (hmem : committed ∈ events) (hstate : committed.state = .terminal)
    {last : VerificationActionJournalEvent} (hlast : events.getLast? = some last)
    (hcarries : last.state.carriesTerminal) : (readbackOf events).terminal = committed.terminal := by
  rw [readbackOf_terminal hlast, if_pos hcarries]
  have hmem' := List.mem_of_getLast? hlast
  by_cases hterminal : last.state = .terminal
  · rw [hchained.unique hmem' hmem (hterminal.trans hstate.symm) (by rw [hterminal]; decide)]
  · have hreused : last.state = .reused := by
      simpa [VerificationActionJournalState.carriesTerminal, hterminal] using hcarries
    exact h committed hmem hstate last hmem' hreused

/-- One more event keeps the law exactly when a reuse carries what the readback has exposed. -/
theorem oneResult_snoc (hchained : Chained actionKey events) (hfollows : Follows actionKey events event) :
    OneResult (events ++ [event]) ↔
      OneResult events ∧ (event.state = .reused → event.terminal = (readbackOf events).terminal) := by
  have hboth : Chained actionKey (events ++ [event]) := hchained.snoc hfollows
  by_cases hreused : event.state = .reused
  · -- the committed terminal is among the events before
    obtain ⟨last, hlast, hcarries⟩ : ∃ last, events.getLast? = some last ∧ last.state.carriesTerminal := by
      have htransition := hfollows.transition
      rw [hreused] at htransition
      cases hlast : events.getLast? with
      | none =>
          rw [hlast] at htransition
          cases htransition
      | some last =>
          rw [hlast, Option.map_some] at htransition
          refine ⟨last, rfl, ?_⟩
          revert htransition
          cases last.state <;> decide
    obtain ⟨committed, hmem, hstate⟩ := exists_committed hchained hlast hcarries
    constructor
    · intro h
      have hold := OneResult.of_append h
      refine ⟨hold, fun _ => ?_⟩
      rw [hold.exposed hchained hmem hstate hlast hcarries]
      exact h committed (List.mem_append_left _ hmem) hstate event (by simp) hreused
    · rintro ⟨hold, hnew⟩ c hc hc' r hr hr'
      have hcommitted : c = committed :=
        Chained.unique hboth hc (List.mem_append_left _ hmem) (hc'.trans hstate.symm) (by rw [hc']; decide)
      subst hcommitted
      rcases List.mem_append.mp hr with hr | hr
      · exact hold c hmem hstate r hr hr'
      · obtain rfl := List.mem_singleton.mp hr
        rw [hnew hr', hold.exposed hchained hmem hstate hlast hcarries]
  · -- the new event is no reuse, and none of the events before follows a new terminal
    refine ⟨fun h => ⟨h.of_append, fun h' => absurd h' hreused⟩, ?_⟩
    rintro ⟨hold, -⟩ c hc hc' r hr hr'
    rcases List.mem_append.mp hr with hold' | hnew
    · rcases List.mem_append.mp hc with hc₁ | hc₁
      · exact hold c hc₁ hc' r hold' hr'
      · have hbefore := (List.pairwise_append.mp (Chained.pairwise hboth)).2.2 r hold' c hc₁
        rw [hc', hr'] at hbefore
        exact absurd hbefore (by decide)
    · obtain rfl := List.mem_singleton.mp hnew
      exact absurd hr' hreused

/-! ### Runs of appends -/

variable [LocaleText] {evidence : RetainedEvidence}

/-- A call that has appended its event, and the terminal that the journal exposed to it. -/
structure AppendCall (actionKey : VerificationActionKeyDigest) where
  place : Nat
  input : AppendInput actionKey
  event : VerificationActionJournalEvent
  exposed : Option VerificationActionTerminal

/-- The call leads from one state of the files to another. -/
structure AppendCall.Performs (evidence : RetainedEvidence) (files : ActionFiles) (call : AppendCall actionKey)
    (files' : ActionFiles) : Prop where
  alone : Alone performFile call.place files (appendVerificationActionJournalEvent evidence call.input) files'
    (.ok call.event)
  exposed : ∃ generation, readVerificationActionJournalGeneration evidence actionKey files.journal = .ok generation ∧
    generation.readback.terminal = call.exposed

/-- A reuse is given the terminal that the journal exposes. -/
def AppendCall.Reuses (call : AppendCall actionKey) : Prop :=
  call.input.state = .reused → nullableTerminal call.input.terminal = .ok call.exposed

/-- The journal is the text of chained events. -/
def Holds (actionKey : VerificationActionKeyDigest) (files : ActionFiles) (events : List VerificationActionJournalEvent) :
    Prop := files.journalText.getD [] = journalText events ∧ Chained actionKey events

/-- The terminal that the readback exposes is the committed one. -/
def ExposesCommitted (events : List VerificationActionJournalEvent) : Prop :=
  ∀ terminal, (readbackOf events).terminal = some terminal →
    ∃ committed ∈ events, committed.state = .terminal ∧ committed.terminal = some terminal

omit [LocaleText] in
theorem OneResult.exposesCommitted (h : OneResult events) (hchained : Chained actionKey events) :
    ExposesCommitted events := by
  intro terminal hterminal
  cases hlast : events.getLast? with
  | none => simp [readbackOf, hlast] at hterminal
  | some last =>
      have hcarries : last.state.carriesTerminal := by
        by_contra hnot
        rw [readbackOf_terminal hlast, if_neg hnot] at hterminal
        cases hterminal
      obtain ⟨committed, hmem, hstate⟩ := exists_committed hchained hlast hcarries
      exact ⟨committed, hmem, hstate, (h.exposed hchained hmem hstate hlast hcarries).symm.trans hterminal⟩

/-- One call of a run. -/
theorem AppendCall.Performs.snoc {files files' : ActionFiles} {call : AppendCall actionKey}
    (h : call.Performs evidence files files') (hholds : Holds actionKey files events) :
    Holds actionKey files' (events ++ [call.event]) ∧
      (OneResult (events ++ [call.event]) ↔ OneResult events ∧ call.Reuses) := by
  obtain ⟨generation, hread, happends, hsource, physical, rfl⟩ := alone_append h.alone
  obtain ⟨_, hread', hexposed⟩ := h.exposed
  obtain rfl := Except.ok.inj (hread.symm.trans hread')
  have hreads := reads_of_readGeneration hread happends.recovery
  obtain ⟨htext, hchained⟩ := hholds
  have hevents : generation.readback.events = events := by
    apply journalText_injective hreads.chained hchained
    rw [← htext, hsource, hreads.source, hreads.text]
    split
    · rename_i hnil
      rw [hnil]
      rfl
    · rfl
  have hfollows := hevents ▸ happends.follows
  have hreadback : generation.readback = readbackOf events := by
    rw [hreads.readback, hevents]
  refine ⟨⟨?_, hchained.snoc hfollows⟩, ?_⟩
  · rw [← hevents, ← hreads.source_append]
    rfl
  · rw [oneResult_snoc hchained hfollows, AppendCall.Reuses, ← hexposed, hreadback, happends.state, happends.terminal,
      Except.ok.injEq]

/-- A run of appends behind a journal with one result. -/
abbrev AppendRun (evidence : RetainedEvidence) (calls : List (AppendCall actionKey)) (files : ActionFiles) : Prop :=
  Run (fun files (call : AppendCall actionKey) files' => call.Performs evidence files files')
    (fun files => ∃ events, Holds actionKey files events ∧ OneResult events) calls files

/-- In a run of appends behind a journal with one result the law holds exactly when every reuse was given the terminal that
the journal exposed to it; the readback then exposes the committed terminal. -/
theorem oneResult_run {calls : List (AppendCall actionKey)} {files : ActionFiles} (h : AppendRun evidence calls files) :
    ∃ events, Holds actionKey files events ∧ ((OneResult events ∧ ExposesCommitted events) ↔ ∀ call ∈ calls, call.Reuses) := by
  have hrun : ∃ events, Holds actionKey files events ∧ (OneResult events ↔ ∀ call ∈ calls, call.Reuses) := by
    induction h with
    | nil h =>
        obtain ⟨events, hholds, hresult⟩ := h
        exact ⟨events, hholds, by simp [hresult]⟩
    | snoc _ hstep ih =>
        obtain ⟨events, hholds, hresult⟩ := ih
        obtain ⟨hholds', hsnoc⟩ := AppendCall.Performs.snoc hstep hholds
        refine ⟨_, hholds', ?_⟩
        rw [hsnoc, hresult, List.forall_mem_append, List.forall_mem_singleton]
  obtain ⟨events, hholds, hresult⟩ := hrun
  exact ⟨events, hholds, fun h => hresult.mp h.1, fun h => ⟨hresult.mpr h, (hresult.mpr h).exposesCommitted hholds.2⟩⟩

end Result

/-! ### A result used again and another one put in its place -/

section OtherResult

local instance : Sha256 := someSha256

local instance : LocaleText := someLocaleText

/-- A terminal without diagnostics. -/
def someTerminal (statusReason : StatusReason) : VerificationActionTerminal :=
  let fields : TerminalFields :=
    ⟨someAction.actionKey, .nonProcess, statusReason, someDigest, someDigest, ⟨[], by decide⟩⟩
  ⟨fields, fields.resultDigest, rfl, rfl, rfl⟩

def passedTerminal : VerificationActionTerminal := someTerminal ⟨(.passed, .executedSuccess), by decide⟩

def failedTerminal : VerificationActionTerminal := someTerminal ⟨(.failed, .executedFailure), by decide⟩

theorem binds_someTerminal (statusReason : StatusReason) :
    TerminalBinds (some (someTerminal statusReason)) someAction.actionKey := by
  intro t ht
  rw [← Option.some.inj ht]
  exact ⟨rfl, List.forall_mem_nil _⟩

theorem within_passedTerminal : Within 600 passedTerminal.toValue := by
  have hascii : (Json.render passedTerminal.toValue).all (· < 0x80) = true := by decide +kernel
  exact ⟨fun c hc => of_decide_eq_true (List.all_eq_true.mp hascii c hc), by decide +kernel⟩

theorem within_failedTerminal : Within 600 failedTerminal.toValue := by
  have hascii : (Json.render failedTerminal.toValue).all (· < 0x80) = true := by decide +kernel
  exact ⟨fun c hc => of_decide_eq_true (List.all_eq_true.mp hascii c hc), by decide +kernel⟩

/-- A run of appends that leads from no journal to these events. -/
structure SampleRun (calls : List (AppendCall someAction.actionKey)) (files : ActionFiles)
    (events : List VerificationActionJournalEvent) : Prop where
  run : AppendRun noEvidence calls files
  text : files.journalText = if events = [] then none else some (journalText events)
  chained : Chained someAction.actionKey events
  within : ∀ event ∈ events, Within 2100 event.toValue

theorem SampleRun.reads {calls : List (AppendCall someAction.actionKey)} {files : ActionFiles}
    {events : List VerificationActionJournalEvent} (h : SampleRun calls files events) (hlength : events.length < maximumEvents) :
    readVerificationActionJournalGeneration noEvidence someAction.actionKey files.journal =
      .ok ⟨readbackOf events, files.journalText⟩ := readGeneration_of_within h.text hlength.le h.chained h.within

/-- One call more. -/
theorem SampleRun.extend {calls : List (AppendCall someAction.actionKey)} {files : ActionFiles}
    {events : List VerificationActionJournalEvent} (h : SampleRun calls files events) (hlength : events.length < maximumEvents)
    (state : VerificationActionJournalState) {terminal : Option VerificationActionTerminal}
    (htransition : Transition (events.getLast?.map fun event => event.state) state)
    (hbinds : TerminalBinds terminal someAction.actionKey) (hcarries : terminal.isSome = state.carriesTerminal)
    (hwithin : Within 600 (nullable VerificationActionTerminal.toValue terminal)) :
    ∃ call files', SampleRun (calls ++ [call]) files' (extended events state terminal) := by
  have hread := h.reads hlength
  have halone := alone_journalFiles hread h.chained htransition hbinds hcarries 0
  let event := (newEvent someAction (readbackOf events) state terminal someTime none).signed
  refine ⟨⟨0, someInput state terminal, event, (readbackOf events).terminal⟩,
    appended 0 files (files.journalText.getD []) (eventLine event) somePhysical, ?_⟩
  refine ⟨.snoc h.run ⟨halone, _, hread, rfl⟩, ?_, chained_extended h.chained htransition hbinds hcarries, ?_⟩
  · rw [extended, if_neg (by simp), journalText_snoc]
    show some (files.journalText.getD [] ++ eventLine event) = some (journalText events ++ eventLine event)
    rw [h.text]
    split
    · rename_i hnil
      rw [hnil]
      rfl
    · rfl
  · exact List.forall_mem_append.mpr ⟨h.within, List.forall_mem_singleton.mpr (within_last h.chained hlength _ hwithin)⟩

theorem sampleRun_nil : SampleRun [] ⟨none, none, none, none⟩ [] where
  run := .nil ⟨[], ⟨rfl, .nil⟩, List.forall_mem_nil _⟩
  text := rfl
  chained := .nil
  within := List.forall_mem_nil _

theorem getLast?_extended (events : List VerificationActionJournalEvent) (state : VerificationActionJournalState)
    (terminal : Option VerificationActionTerminal) :
    (extended events state terminal).getLast?.map (fun event => event.state) = some state := by
  rw [extended, List.getLast?_concat]
  rfl

/-- The journal of an Action that has run to its end. -/
def settledJournal : List VerificationActionJournalEvent :=
  extended (extended (extended [] .queued none) .running none) .terminal (some passedTerminal)

theorem sampleRun_settled : ∃ calls files, SampleRun calls files settledJournal := by
  obtain ⟨c₁, f₁, h₁⟩ := sampleRun_nil.extend (by decide) .queued rfl (terminalBinds_none _) rfl
    (within_null.mono (by decide))
  obtain ⟨c₂, f₂, h₂⟩ := h₁.extend (by decide) .running (by rw [getLast?_extended]; decide) (terminalBinds_none _) rfl
    (within_null.mono (by decide))
  obtain ⟨c₃, f₃, h₃⟩ := h₂.extend (by decide) .terminal (by rw [getLast?_extended]; decide) (binds_someTerminal _)
    rfl within_passedTerminal
  exact ⟨_, f₃, h₃⟩

theorem oneResult_run_settled : ∃ (calls : List (AppendCall someAction.actionKey)) (files : ActionFiles),
    AppendRun noEvidence calls files ∧ ∃ events, Holds someAction.actionKey files events ∧
      ((OneResult events ∧ ExposesCommitted events) ↔ ∀ call ∈ calls, call.Reuses) := by
  obtain ⟨calls, files, h⟩ := sampleRun_settled
  exact ⟨calls, files, h.run, oneResult_run h.run⟩

/-- A passed Action is reused as a failed one. -/
theorem not_oneResult_run : ∃ (calls : List (AppendCall someAction.actionKey)) (files : ActionFiles),
    AppendRun noEvidence calls files ∧ ∃ readback, parseJournalSource someAction.actionKey files.journalText = .ok readback ∧
      ¬OneResult readback.events := by
  obtain ⟨calls, files, h⟩ := sampleRun_settled
  have htransition : Transition (settledJournal.getLast?.map fun event => event.state) .reused := by
    rw [settledJournal, getLast?_extended]
    decide
  have hbinds : TerminalBinds (some failedTerminal) someAction.actionKey := binds_someTerminal _
  obtain ⟨call, files', h'⟩ := h.extend (by decide) .reused htransition hbinds rfl within_failedTerminal
  have hexposed : (readbackOf settledJournal).terminal = some passedTerminal := by
    rw [settledJournal, extended, readbackOf_terminal (List.getLast?_concat ..)]
    rfl
  refine ⟨_, files', h'.run, readbackOf (extended settledJournal .reused (some failedTerminal)), ?_, fun hresult => ?_⟩
  · have hne : extended settledJournal .reused (some failedTerminal) ≠ [] :=
      List.append_ne_nil_of_right_ne_nil _ (List.cons_ne_nil _ _)
    have hlength : (extended settledJournal .reused (some failedTerminal)).length = 4 := rfl
    have hlines := parseJournalLines_ok.mpr ⟨hne, hlength.le.trans (by decide), h'.chained, rfl⟩
    rw [h'.text, if_neg hne, parseJournalSource, hlines]
    rfl
  · obtain ⟨-, hfollows⟩ := eachAfter_snoc.mp h'.chained
    obtain ⟨-, hsame⟩ := (oneResult_snoc h.chained hfollows).mp hresult
    have hstatus : failedTerminal = passedTerminal := Option.some.inj ((hsame rfl).trans hexposed)
    exact absurd (congrArg (fun terminal => terminal.statusReason) hstatus) (by decide)

end OtherResult

end SecPlatform.VerificationAction
