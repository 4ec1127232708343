import SecPlatform.VerificationSession.Lemmas.Journal

/-!
# Interleaved appends to the journal of a session

An append extends the text that its second look at the file found. Where that is the text its first read
validated, the journal stays accepted and keeps every event; where it is another one, the line that is
appended carries a stale place.
-/

namespace SecPlatform.VerificationSession

open Contracts Procedure Reliance

/-! ## What the first read found -/

/-- The text that the first read of a call found; an absent file counts as empty. -/
def firstRead : List (Calls.Event FileRequest FileAnswer) → Text
  | ⟨.exists, true⟩ :: ⟨.readText, some text⟩ :: _ => text
  | _ => []

/-- An append only extends the text that its call has validated. -/
def ExtendsValidated : Permission (Option Text) AppendInput FileRequest FileAnswer
  | file, _, history, .appendFsyncCas expectedText _ => file.getD [] = expectedText → expectedText = firstRead history
  | _, _, _, _ => True

/-- The requests of a read that finds this file. -/
def readEvents : Option Text → List (Calls.Event FileRequest FileAnswer)
  | none => [⟨.exists, false⟩]
  | some text => [⟨.exists, true⟩, ⟨.readText, some text⟩]

theorem firstRead_readEvents (file : Option Text) (more : List (Calls.Event FileRequest FileAnswer)) :
    firstRead (readEvents file ++ more) = file.getD [] := by
  cases file <;> rfl

section Interleaved

variable [Sha256] {sessionRevision : Digest}

/-! ## What an append relies on -/

/-- The journal is accepted, and the others only add events. -/
def journalReliance (sessionRevision : Digest) : Reliance (Option Text) AppendInput FileRequest FileAnswer where
  perform := performFile
  permitted := ExtendsValidated
  asserted := fun _ _ _ _ => True
  invariant := fun file => Succeeds (readFile sessionRevision file)
  rely := fun _ file file' => ∀ readback, readFile sessionRevision file = .ok readback →
    ∃ readback', readFile sessionRevision file' = .ok readback' ∧ readback.events <+: readback'.events
  refl := fun _ _ readback h => ⟨readback, h, List.prefix_rfl⟩
  trans := by
    intro i a b c hab hbc readback h
    obtain ⟨readback', h', hp⟩ := hab readback h
    obtain ⟨readback'', h'', hp'⟩ := hbc readback' h'
    exact ⟨readback'', h'', hp.trans hp'⟩

variable {i : Nat} {input : AppendInput} {history : List (Calls.Event FileRequest FileAnswer)} {s : Option Text}

theorem keeps_readTextIfPresent {Q : List (Calls.Event FileRequest FileAnswer) → Option Text →
      Except SessionJournalFailure (Option Text) → Prop}
    (h : ∀ file, (journalReliance sessionRevision).invariant file → (journalReliance sessionRevision).rely i s file →
      Q (history ++ readEvents file) file (.ok file))
    (herror : ∀ history s, Q history s (.error .fileSystem)) :
    (journalReliance sessionRevision).Keeps i input Q history s
      (readTextIfPresent : SessionProcedure (Option Text)) := by
  refine keeps_procedure_bind (keeps_look (fun _ => trivial) (fun _ _ _ h => h.2) fun file hfile hrely _ answer hanswer => ?_)
  obtain rfl := hanswer.1
  cases file with
  | none => exact keeps_pure (h none hfile hrely)
  | some text =>
      refine keeps_procedure_bind (keeps_procedure_bind
        (keeps_look (fun _ => trivial) (fun _ _ _ h => h.2) fun file' hfile' hrely' _ answer' hanswer' => ?_))
      obtain rfl := hanswer'.1
      cases answer' with
      | none => exact herror _ _
      | some text' =>
          refine keeps_pure ?_
          dsimp only
          have hboth := (journalReliance sessionRevision).trans _ _ _ _ hrely hrely'
          have hevents := h (some text') hfile' hboth
          rw [List.append_assoc]
          exact hevents

theorem keeps_readVerificationSessionJournal {Q : List (Calls.Event FileRequest FileAnswer) → Option Text →
      Except SessionJournalFailure VerificationSessionJournalReadback → Prop}
    (h : ∀ file, (journalReliance sessionRevision).rely i s file → ∀ readback,
      readFile sessionRevision file = .ok readback → Q (history ++ readEvents file) file (.ok readback))
    (herror : ∀ history s, Q history s (.error .fileSystem)) :
    (journalReliance sessionRevision).Keeps i input Q history s
      (readVerificationSessionJournal sessionRevision) := by
  refine keeps_procedure_bind (keeps_readTextIfPresent (fun file hfile hrely => ?_) herror)
  obtain ⟨readback, hreadback⟩ := hfile
  refine keeps_result ?_
  rw [hreadback]
  exact h file hrely readback hreadback

/-- An event that is returned is in the journal, at its own place. -/
def Persisted (sessionRevision : Digest) (file : Option Text) (event : VerificationSessionJournalEvent) : Prop :=
  ∃ readback, readFile sessionRevision file = .ok readback ∧ ∀ i, readback.events[i]? = some event ↔ i + 1 = event.sequence

/-- What is read last is persisted. -/
theorem persisted_of_persistedEvent {file : Option Text} {readback : VerificationSessionJournalReadback}
    (hread : readFile sessionRevision file = .ok readback) {event persisted : VerificationSessionJournalEvent}
    (h : persistedEvent event readback = .ok persisted) : Persisted sessionRevision file persisted := by
  obtain ⟨reading, hwf, rfl⟩ := wellFormed_readFile hread
  have hlast : reading.events.getLast? = some persisted := by
    unfold persistedEvent at h
    split at h
    · rename_i last hlast
      split at h
      · rwa [← Except.ok.inj h]
      · cases h
    · cases h
  rw [List.getLast?_eq_getElem?] at hlast
  refine ⟨_, hread, fun i => ⟨fun hi => (hwf.sequence i persisted hi).symm, fun hi => ?_⟩⟩
  have hsequence := hwf.sequence _ _ hlast
  rwa [show i = reading.events.length - 1 by omega]

theorem Persisted.mono {file file' : Option Text} {event : VerificationSessionJournalEvent}
    (h : Persisted sessionRevision file event) (hrely : (journalReliance sessionRevision).rely i file file') :
    Persisted sessionRevision file' event := by
  obtain ⟨readback, hread, hevent⟩ := h
  obtain ⟨readback', hread', hprefix⟩ := hrely readback hread
  obtain ⟨reading, hwf, rfl⟩ := wellFormed_readFile hread'
  refine ⟨_, hread', fun i => ⟨fun hi => (hwf.sequence i event hi).symm, fun hi => ?_⟩⟩
  obtain ⟨rest, hrest⟩ := hprefix
  have hbefore := (hevent i).mpr hi
  rw [← hrest, List.getElem?_append_left (List.getElem?_eq_some_iff.mp hbefore).1, hbefore]

theorem keeps_recordedAtOrNow {Q : List (Calls.Event FileRequest FileAnswer) → Option Text →
      Except SessionJournalFailure Text → Prop}
    (h : ∀ more file recordedAt, Q (history ++ more) file (.ok recordedAt)) :
    (journalReliance sessionRevision).Keeps i input Q history s (recordedAtOrNow input) := by
  unfold recordedAtOrNow
  split
  · have hnone := h [] s
    simp only [List.append_nil] at hnone
    exact keeps_pure (hnone _)
  · exact keeps_look (fun _ => trivial) (fun _ _ _ h => h) fun file _ _ _ answer _ => h _ _ _

/-- Accepted files with one content are the same file. -/
theorem readFile_congr {file file' : Option Text} {readback readback' : VerificationSessionJournalReadback}
    (h : readFile sessionRevision file = .ok readback) (h' : readFile sessionRevision file' = .ok readback')
    (hsame : file.getD [] = file'.getD []) : file = file' := by
  have hempty (readback) : readFile sessionRevision (some []) ≠ .ok readback := by
    intro h
    obtain ⟨reading, hreading, -⟩ := readFile_some_ok.mp h
    cases (readText_ok.mp hreading).1
  cases file with
  | none =>
      cases file' with
      | none => rfl
      | some text' =>
          obtain rfl : [] = text' := hsame
          exact absurd h' (hempty _)
  | some text =>
      cases file' with
      | none =>
          obtain rfl : text = [] := hsame
          exact absurd h (hempty _)
      | some text' => exact congrArg some hsame

/-- The compare-and-swap of an append whose text is the one that was validated. -/
theorem keeps_appendFsyncCas {validated : Option Text} {expectedText : Text}
    {current : VerificationSessionJournalReadback} {event parsed : VerificationSessionJournalEvent}
    (hcurrent : readFile sessionRevision validated = .ok current)
    (hevent : parseEvent event.toValue sessionRevision (current.events.length + 1) current.latestEvent
      current.completedStageIndex = .ok parsed)
    (hfirst : firstRead history = validated.getD [])
    {Q : List (Calls.Event FileRequest FileAnswer) → Option Text → Except SessionJournalFailure Bool → Prop}
    (h : ∀ more file appended, Q (history ++ more) file (.ok appended)) :
    (journalReliance sessionRevision).Keeps i input Q history s
      (appendFsyncCas expectedText (eventLine event)) := by
  refine keeps_ask fun file hfile _ hpermitted => ⟨trivial, fun answer file' hperform => ?_⟩
  rcases hperform with ⟨rfl, hsame, rfl⟩ | ⟨rfl, rfl⟩
  · -- the text extended is the one the first read has validated
    obtain ⟨readback, hreadback⟩ := hfile
    have hvalidated : expectedText = validated.getD [] := (hpermitted hsame).trans hfirst
    obtain rfl := readFile_congr hcurrent hreadback (hvalidated.symm.trans hsame.symm)
    obtain ⟨readback', hreadback', hevents⟩ := readFile_append hcurrent hevent
    rw [hsame] at hreadback'
    refine ⟨⟨⟨readback', hreadback'⟩, fun _ _ other hother => ⟨readback', hreadback', ?_⟩⟩, h _ _ _⟩
    obtain rfl : current = other := Except.ok.inj (hcurrent.symm.trans hother)
    exact hevents ▸ List.prefix_append _ _
  · exact ⟨allows_same hfile, h _ _ _⟩

theorem persisted_of_error {file : Option Text} {e : SessionJournalFailure} :
    ∀ event, (.error e : Except SessionJournalFailure VerificationSessionJournalEvent) = .ok event →
      Persisted sessionRevision file event := by
  intro event h
  cases h

/-- An append keeps what the others rely on, whatever they do, and what it returns is persisted. -/
theorem keeps_append (i : Nat) (input : AppendInput) (s : Option Text) :
    (journalReliance sessionRevision).Keeps i input
      (fun _ file outcome => ∀ event, outcome = .ok event → Persisted sessionRevision file event) [] s
      (appendVerificationSessionJournalEvent sessionRevision input) := by
  refine keeps_procedure_bind (keeps_readVerificationSessionJournal (fun validated _ current hcurrent => ?_) fun _ _ => persisted_of_error)
  rw [List.nil_append]
  refine keeps_result_bind (fun operationId _ => ?_) fun _ _ => persisted_of_error
  refine keeps_result_bind (fun receiptDigest _ => ?_) fun _ _ => persisted_of_error
  refine keeps_procedure_bind (keeps_recordedAtOrNow fun more₁ _ now => ?_)
  refine keeps_result_bind (fun recordedAt _ => ?_) fun _ _ => persisted_of_error
  refine keeps_result_bind (fun note _ => ?_) fun _ _ => persisted_of_error
  refine keeps_result_bind (fun parsed hparsed => ?_) fun _ _ => persisted_of_error
  refine keeps_procedure_bind (keeps_look (fun _ => trivial) (fun _ _ _ h => h) fun _ _ _ _ _ _ => ?_)
  refine keeps_procedure_bind (keeps_readTextIfPresent (fun existing _ _ => ?_) fun _ _ => persisted_of_error)
  have hfirst (more) : firstRead (readEvents validated ++ more) = validated.getD [] := firstRead_readEvents validated more
  refine keeps_procedure_bind (keeps_appendFsyncCas hcurrent hparsed ?_ fun more file appended => ?_)
  · simp only [List.append_assoc, hfirst]
  · cases appended with
    | true =>
        refine keeps_procedure_bind (keeps_readVerificationSessionJournal (fun file' _ readback hreadback => ?_) fun _ _ => persisted_of_error)
        exact keeps_result fun persisted h => persisted_of_persistedEvent hreadback h
    | false => exact keeps_done persisted_of_error

/-! ## Every interleaving -/

/-- What is promised of the journal: it is accepted, its completed events name a prefix of the stages in order, no event
is about a skipped or a superseded stage, and every event that was returned has its place for good. -/
def JournalHolds (sessionRevision : Digest)
    (s : Processes (Option Text) AppendInput FileRequest FileAnswer
      (Except SessionJournalFailure VerificationSessionJournalEvent)) : Prop :=
  ∃ readback, readFile sessionRevision s.state = .ok readback ∧
    completedStages readback.events <+: verificationSessionStages ∧ EachAfter Targets readback.events ∧
    ∀ p ∈ s.all, ∀ event, p.program = .done (.ok event) →
      ∀ i, readback.events[i]? = some event ↔ i + 1 = event.sequence

/-- In every run whose appends extend only what they have validated, every state of the journal is as promised. -/
theorem journalHolds_of_extendsValidated {s : Processes (Option Text) AppendInput FileRequest FileAnswer
      (Except SessionJournalFailure VerificationSessionJournalEvent)}
    (h : Processes.Reachable (appendProgram sessionRevision) performFile (fun file => Succeeds (readFile sessionRevision file))
      ExtendsValidated s) : JournalHolds sessionRevision s := by
  obtain ⟨⟨readback, hreadback⟩, hall⟩ := reachable_established (fun _ h => h) (fun i input file _ => keeps_append i input file) h
  obtain ⟨reading, hwf, rfl⟩ := wellFormed_readFile hreadback
  refine ⟨_, hreadback, hwf.stages, hwf.targets, fun p hp event hevent => ?_⟩
  obtain ⟨i, hi⟩ := List.getElem?_of_mem hp
  obtain ⟨file, -, hrely, hkeeps⟩ := hall i p hi
  rw [hevent] at hkeeps
  obtain ⟨readback', hreadback', hplace⟩ := (hkeeps event rfl).mono hrely
  rwa [Except.ok.inj (hreadback'.symm.trans hreadback)] at hplace

end Interleaved

/-! ## Two appends at once -/

section TwoAppends

/-- One answer of the file to each request. -/
def respondFile (_ : Nat) (file : Option Text) : (k : FileRequest) → FileAnswer k × Option Text
  | .exists => (file.isSome, file)
  | .readText => (file, file)
  | .ensureDirectory => ((), file)
  | .appendFsyncCas expectedText text =>
      if file.getD [] = expectedText then (true, some (expectedText ++ text)) else (false, file)
  | .now => (Text.ofString "2026-01-01T00:00:00.000Z", file)

theorem performFile_respondFile (i : Nat) (file : Option Text) (k : FileRequest) :
    performFile i file k (respondFile i file k).1 (respondFile i file k).2 := by
  cases k with
  | «exists» | readText => exact ⟨rfl, rfl⟩
  | ensureDirectory | now => rfl
  | appendFsyncCas expectedText text =>
      rw [respondFile]
      split
      · rename_i h
        exact .inl ⟨rfl, h, rfl⟩
      · exact .inr ⟨rfl, rfl⟩

def allowsValidated (file : Option Text) (_ : AppendInput) (history : List (Calls.Event FileRequest FileAnswer)) :
    FileRequest → Bool
  | .appendFsyncCas expectedText _ => file.getD [] ≠ expectedText || expectedText = firstRead history
  | _ => true

theorem extendsValidated_of_allows (file : Option Text) (input : AppendInput)
    (history : List (Calls.Event FileRequest FileAnswer)) (k : FileRequest)
    (h : allowsValidated file input history k) : ExtendsValidated file input history k := by
  cases k with
  | appendFsyncCas expectedText text =>
      intro hsame
      simpa [allowsValidated, hsame] using h
  | «exists» | readText | ensureDirectory | now => trivial

/-- Any hash will do: the lines are refused for their places. -/
local instance someSha256 : Sha256 :=
  ⟨fun _ => ⟨Text.ofString "sha256:" ++ List.replicate 64 (unit '0'), isDigest_zeros⟩⟩

def someRevision : Digest := Sha256.rawSha256 []

/-- An observation before the first stage. -/
def waitingInput : AppendInput := ⟨.frozen, .waiting, none, none, none, none⟩

abbrev AppendProcesses : Type := Processes (Option Text) AppendInput FileRequest FileAnswer
  (Except SessionJournalFailure VerificationSessionJournalEvent)

/-- One append from its begin to its end. -/
def soleRun : AppendProcesses :=
  (.begin waitingInput :: List.replicate 7 (.request 0)).foldl
    (Processes.move (appendProgram someRevision) respondFile allowsValidated) ⟨none, []⟩

theorem journalHolds_soleRun : soleRun.state.isSome ∧ JournalHolds someRevision soleRun :=
  ⟨by decide, journalHolds_of_extendsValidated
    (Processes.reachable_moves performFile_respondFile extendsValidated_of_allows (.start ⟨_, rfl⟩) _)⟩

/-- The first append reads the absent journal; the second one completes its write; the first one then looks again. -/
def staleMoves : List (Processes.Move AppendInput) :=
  [.begin waitingInput, .begin waitingInput, .request 0] ++ List.replicate 5 (.request 1) ++
    List.replicate 5 (.request 0)

def staleRun : AppendProcesses :=
  staleMoves.foldl (Processes.move (appendProgram someRevision) respondFile fun _ _ _ _ => true) ⟨none, []⟩

theorem readFile_staleRun : (readFile someRevision staleRun.state).isOk = false := by decide +kernel

/-- Two appends to a new journal can leave one that is accepted no more. -/
theorem not_journalHolds_staleAppend : ∃ s : AppendProcesses,
    Processes.Reachable (appendProgram someRevision) performFile (fun file => Succeeds (readFile someRevision file))
      (fun _ _ _ _ => True) s ∧ ¬JournalHolds someRevision s := by
  refine ⟨staleRun, Processes.reachable_moves performFile_respondFile (fun _ _ _ _ _ => trivial) (.start ⟨_, rfl⟩) _, ?_⟩
  rintro ⟨readback, hreadback, -⟩
  have hstale := readFile_staleRun
  rw [hreadback] at hstale
  cases hstale

end TwoAppends

end SecPlatform.VerificationSession
