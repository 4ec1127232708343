import SecPlatform.VerificationAction.Lemmas.Append
import SecPlatform.VerificationAction.Runner

/-!
# What the calls on one Action rely on

The journal only grows, its creator stays, and while a call holds the recovery lock no other call takes the
claim away. Every call keeps this for the others, whatever they do between its operations.
-/

namespace SecPlatform.VerificationAction

open Contracts Procedure Reliance

/-! ## The journal and its events -/

section Files

variable [Sha256] {actionKey : VerificationActionKeyDigest} {files files' : ActionFiles}
  {events : List VerificationActionJournalEvent}

/-- The journal is the text of these chained events; without events it is absent. -/
structure JournalIs (actionKey : VerificationActionKeyDigest) (files : ActionFiles)
    (events : List VerificationActionJournalEvent) : Prop where
  text : files.journalText = if events = [] then none else some (journalText events)
  chained : Chained actionKey events

theorem JournalIs.unique {events' : List VerificationActionJournalEvent} (h : JournalIs actionKey files events)
    (h' : JournalIs actionKey files events') : events = events' := by
  have htext := h.text.symm.trans h'.text
  split at htext <;> split at htext
  · rename_i hnil hnil'
    rw [hnil, hnil']
  · cases htext
  · cases htext
  · exact journalText_injective h.chained h'.chained (Option.some.inj htext)

theorem JournalIs.getD (h : JournalIs actionKey files events) : files.journalText.getD [] = journalText events := by
  rw [h.text]
  split
  · rename_i hnil
    rw [hnil]
    rfl
  · rfl

theorem JournalIs.eq_nil (h : JournalIs actionKey files events) : files.journal = none ↔ events = [] := by
  have htext := h.text
  unfold ActionFiles.journalText at htext
  split at htext
  · rename_i hnil
    exact ⟨fun _ => hnil, fun _ => Option.map_eq_none_iff.mp htext⟩
  · rename_i hne
    refine ⟨fun hnone => ?_, fun hnil => absurd hnil hne⟩
    rw [hnone] at htext
    cases htext

theorem JournalIs.appended {event : VerificationActionJournalEvent} (h : JournalIs actionKey files events)
    (hfollows : Follows actionKey events event) (i : Nat) (physical : PhysicalIdentity) :
    JournalIs actionKey (appended i files (journalText events) (eventLine event) physical) (events ++ [event]) where
  text := by
    rw [if_neg (by simp), journalText_snoc]
    rfl
  chained := h.chained.snoc hfollows

/-- The events of a reading are those of the journal that was read. -/
theorem Reads.journalIs {generation : JournalGeneration} (h : Reads actionKey files.journal generation) :
    JournalIs actionKey files generation.readback.events := ⟨h.text, h.chained⟩

/-! ## The relation -/

/-- The journal has events, and a journal that a call has created is there. -/
structure FilesHold (actionKey : VerificationActionKeyDigest) (files : ActionFiles) : Prop where
  journal : ∃ events, JournalIs actionKey files events
  created : files.creator ≠ none → files.journal ≠ none

/-- What the other calls do while a call at a place does not move. -/
structure Others (actionKey : VerificationActionKeyDigest) (i : Nat) (files files' : ActionFiles) : Prop where
  journal : ∀ events, JournalIs actionKey files events → ∃ later, JournalIs actionKey files' (events ++ later)
  creator : ∀ j, files.creator = some j → files'.creator = some j
  lock : files.lock = some i → files'.lock = some i
  claim : files.lock = some i → ∀ text, files.claim = some text → files'.claim = some text

theorem Others.refl (i : Nat) (files : ActionFiles) : Others actionKey i files files where
  journal := fun events h => ⟨[], by rwa [List.append_nil]⟩
  creator := fun _ h => h
  lock := id
  claim := fun _ _ h => h

theorem Others.trans {i : Nat} {a b c : ActionFiles} (hab : Others actionKey i a b) (hbc : Others actionKey i b c) :
    Others actionKey i a c where
  journal := fun events h => by
    obtain ⟨later, h'⟩ := hab.journal events h
    obtain ⟨more, h''⟩ := hbc.journal _ h'
    exact ⟨later ++ more, by rwa [List.append_assoc] at h''⟩
  creator := fun j h => hbc.creator j (hab.creator j h)
  lock := fun h => hbc.lock (hab.lock h)
  claim := fun h text htext => hbc.claim (hab.lock h) text (hab.claim h text htext)

/-- The claim names an owner whose time has not come to its end. -/
def OwnedBy (actionKey : VerificationActionKeyDigest) (files : ActionFiles) (token now : Text) : Prop :=
  ∃ text claim, files.claim = some text ∧ parseClaim text actionKey = .ok claim ∧ claim.ownerToken.val = token ∧
    now < claim.expiresAt

variable [DateArithmetic]

/-- The claim that a renewal writes. -/
def Renewal (actionKey : VerificationActionKeyDigest) (files : ActionFiles) (input : RenewInput) (text : Text) : Prop :=
  ∃ source existing extension, files.claim = some source ∧ parseClaim source actionKey = .ok existing ∧
    newClaim actionKey input.ownerToken input.now input.leaseDurationMs = .ok extension ∧
    text = { extension with acquiredAt := existing.acquiredAt }.source

/-- What holds before an operation: a commit has its claim, and a claim that is written is a new one or a renewal. -/
def Asserted {actionKey : VerificationActionKeyDigest} :
    Permission ActionFiles (ActionCall actionKey) FileRequest FileAnswer
  | files, .commitTerminal input, _, .appendJournal _ _ => OwnedBy actionKey files input.ownerToken input.now
  | files, .commitRevocation input, _, .appendJournal _ _ => OwnedBy actionKey files input.ownerToken input.now
  | _, .acquire input, _, .createClaim text => ∃ claim, newClaim actionKey input.ownerToken input.now
      (input.leaseDurationMs.getD (.ofNat 300000)) = .ok claim ∧ text = claim.source
  | _, .run input, _, .createClaim text => ∃ now claim, newClaim actionKey input.ownerToken now
      (input.leaseDurationMs.getD (.ofNat 300000)) = .ok claim ∧ text = claim.source
  | _, _, _, .createClaim _ => False
  | files, .renew input, _, .replaceClaim text => Renewal actionKey files input text
  | _, _, _, .replaceClaim _ => False
  | _, _, _, _ => True

/-- The calls on the files of one Action. -/
def filesReliance (actionKey : VerificationActionKeyDigest)
    (permitted : Permission ActionFiles (ActionCall actionKey) FileRequest FileAnswer) :
    Reliance ActionFiles (ActionCall actionKey) FileRequest FileAnswer where
  perform := performFile
  permitted := permitted
  asserted := Asserted
  invariant := FilesHold actionKey
  rely := Others actionKey
  refl := Others.refl
  trans := fun _ _ _ _ => Others.trans

end Files

/-! ## Single operations -/

/-- An operation that only looks. -/
def Looks (k : FileRequest) : Prop := ∀ i s value s', effect i s k value s' → s' = s

theorem performFile_of_looks {i : Nat} {s s' : ActionFiles} {k : FileRequest} (hlooks : Looks k) {answer : FileAnswer k}
    (h : performFile i s k answer s') : s' = s := by
  cases answer with
  | ok value => exact hlooks i s value s' h
  | error e =>
      rcases h with h | ⟨value, h⟩
      · exact h
      · exact hlooks i s value s' h

theorem looks_observeJournal : Looks .observeJournal := fun _ _ _ _ h => h.2

theorem looks_claimExists : Looks .claimExists := fun _ _ _ _ h => h.2

theorem looks_readClaim : Looks .readClaim := fun _ _ _ _ h => h.2

theorem looks_ensureDirectory : Looks .ensureDirectory := fun _ _ _ _ h => h

theorem looks_now : Looks .now := fun _ _ _ _ h => h

/-- An operation that neither writes a claim nor appends. -/
def Free : FileRequest → Prop
  | .createClaim _ | .replaceClaim _ | .appendJournal _ _ => False
  | _ => True

section Operations

variable [Sha256] [DateArithmetic] {actionKey : VerificationActionKeyDigest}
  {permitted : Permission ActionFiles (ActionCall actionKey) FileRequest FileAnswer} {i : Nat}
  {call : ActionCall actionKey} {history : List (Calls.Event FileRequest FileAnswer)} {s : ActionFiles}

/-- A post-condition of a procedure in a call. -/
abbrev Post (α : Type) : Type := List (Calls.Event FileRequest FileAnswer) → ActionFiles → Except ActionFailure α → Prop

theorem asserted_of_free {k : FileRequest} (h : Free k) : Asserted s call history k := by
  cases k with
  | createClaim | replaceClaim | appendJournal => exact h.elim
  | _ => cases call <;> trivial

/-- One operation, whose throw ends the procedure. -/
theorem keeps_attempt {k : FileRequest} {Q : Post (FileValue k)}
    (hasserted : ∀ s', FilesHold actionKey s' → Others actionKey i s s' → Asserted s' call history k)
    (h : ∀ s' answer s'', FilesHold actionKey s' → Others actionKey i s s' → permitted s' call history k →
      performFile i s' k answer s'' →
      (filesReliance actionKey permitted).Allows i s' s'' ∧ Q (history ++ [⟨k, answer⟩]) s'' answer) :
    (filesReliance actionKey permitted).Keeps i call Q history s (attempt k) := by
  refine keeps_procedure_bind (keeps_ask fun s' hinv hrely hpermitted => ⟨hasserted s' hinv hrely, ?_⟩)
  intro answer s'' hperform
  obtain ⟨hallows, hq⟩ := h s' answer s'' hinv hrely hpermitted hperform
  exact ⟨hallows, keeps_result hq⟩

/-- A look at the files, from every state that the others may have made of the one known. -/
theorem keeps_lookAt {k : FileRequest} (hlooks : Looks k) (hfree : Free k) {Q : Post (FileValue k)}
    (hok : ∀ s' value, FilesHold actionKey s' → Others actionKey i s s' → permitted s' call history k →
      effect i s' k value s' → Q (history ++ [⟨k, .ok value⟩]) s' (.ok value))
    (herror : ∀ history' s' e, Others actionKey i s s' → Q history' s' (.error e)) :
    (filesReliance actionKey permitted).Keeps i call Q history s (attempt k) := by
  refine keeps_attempt (fun _ _ _ => asserted_of_free hfree) fun s' answer s'' hinv hrely hpermitted hperform => ?_
  obtain rfl := performFile_of_looks hlooks hperform
  refine ⟨allows_same (r := filesReliance actionKey permitted) hinv, ?_⟩
  cases answer with
  | ok value => exact hok _ value hinv hrely hpermitted hperform
  | error e => exact herror _ _ e hrely

/-- A change of the claim, while the call holds the lock or where there is no claim. -/
theorem allows_claim {claim : Option Text} (hinv : FilesHold actionKey s)
    (h : s.lock = some i ∨ s.claim = none) : (filesReliance actionKey permitted).Allows i s { s with claim := claim } where
  invariant := ⟨hinv.journal.imp fun _ h => ⟨h.text, h.chained⟩, hinv.created⟩
  others := fun j hj => {
    journal := fun events h => ⟨[], by rw [List.append_nil]; exact ⟨h.text, h.chained⟩⟩
    creator := fun _ h => h
    lock := id
    claim := fun hlock text htext => by
      rcases h with h | h
      · exact absurd (Option.some.inj (h.symm.trans hlock)).symm hj
      · rw [h] at htext
        cases htext }

/-- A change of the lock, where no other call holds it. -/
theorem allows_lock {lock : Option Nat} (hinv : FilesHold actionKey s) (h : s.lock = some i ∨ s.lock = none) :
    (filesReliance actionKey permitted).Allows i s { s with lock := lock } where
  invariant := ⟨hinv.journal.imp fun _ h => ⟨h.text, h.chained⟩, hinv.created⟩
  others := fun j hj => by
    have hnot : s.lock ≠ some j := by
      rcases h with h | h <;> rw [h]
      · exact fun hij => hj (Option.some.inj hij).symm
      · exact nofun
    exact {
      journal := fun events h => ⟨[], by rw [List.append_nil]; exact ⟨h.text, h.chained⟩⟩
      creator := fun _ h => h
      lock := fun hlock => absurd hlock hnot
      claim := fun hlock => absurd hlock hnot }

/-- One more event of the journal that is there. -/
theorem allows_append {events : List VerificationActionJournalEvent} {event : VerificationActionJournalEvent}
    (hinv : FilesHold actionKey s) (hjournal : JournalIs actionKey s events) (hfollows : Follows actionKey events event)
    (physical : PhysicalIdentity) :
    (filesReliance actionKey permitted).Allows i s (appended i s (journalText events) (eventLine event) physical) where
  invariant := ⟨⟨_, hjournal.appended hfollows i physical⟩, fun _ => Option.some_ne_none _⟩
  others := fun j _ => {
    journal := fun events' h' => by
      obtain rfl := hjournal.unique h'
      exact ⟨[event], hjournal.appended hfollows i physical⟩
    creator := fun j' h' => by
      have hcreated := hinv.created (by rw [h']; exact Option.some_ne_none _)
      rw [appended, if_neg hcreated, h']
    lock := id
    claim := fun _ _ h => h }

/-! ## Reading the journal and appending to it -/

variable [LocaleText] {evidence : RetainedEvidence}

theorem keeps_readGeneration {Q : Post JournalGeneration}
    (hok : ∀ s' generation, FilesHold actionKey s' → Others actionKey i s s' →
      readVerificationActionJournalGeneration evidence actionKey s'.journal = .ok generation →
      Q (history ++ [⟨.observeJournal, .ok s'.journal⟩]) s' (.ok generation))
    (herror : ∀ history' s' e, Others actionKey i s s' → Q history' s' (.error e)) :
    (filesReliance actionKey permitted).Keeps i call Q history s (readGeneration evidence actionKey) := by
  unfold readGeneration
  refine keeps_procedure_bind (keeps_lookAt looks_observeJournal trivial
    (fun s' file hinv hrely _ heffect => ?_) fun history' s' e hrely => herror _ _ _ hrely)
  obtain ⟨rfl, -⟩ := heffect
  refine keeps_result ?_
  cases hread : readVerificationActionJournalGeneration evidence actionKey s'.journal with
  | ok generation => exact hok s' generation hinv hrely hread
  | error e => exact herror _ _ _ hrely

theorem keeps_readJournal {Q : Post VerificationActionJournalReadback}
    (hok : ∀ s' generation, FilesHold actionKey s' → Others actionKey i s s' →
      readVerificationActionJournalGeneration evidence actionKey s'.journal = .ok generation →
      Q (history ++ [⟨.observeJournal, .ok s'.journal⟩]) s' (.ok generation.readback))
    (herror : ∀ history' s' e, Others actionKey i s s' → Q history' s' (.error e)) :
    (filesReliance actionKey permitted).Keeps i call Q history s (readVerificationActionJournal evidence actionKey) := by
  unfold readVerificationActionJournal
  refine keeps_procedure_bind (keeps_readGeneration (fun s' generation hinv hrely hread => ?_) herror)
  exact keeps_pure (hok s' generation hinv hrely hread)

/-- What neither the others nor an append of the call itself take away. -/
structure Stable (actionKey : VerificationActionKeyDigest) (i : Nat) (P : ActionFiles → Prop) : Prop where
  others : ∀ s s', Others actionKey i s s' → P s → P s'
  append : ∀ s expectedText text value s', FilesHold actionKey s →
    effect i s (.appendJournal expectedText text) value s' → P s → P s'

variable {P : ActionFiles → Prop}

omit [LocaleText] in
theorem keeps_recordedAtOrNow (hP : Stable actionKey i P) (hs : P s) {recordedAt : Option Text} {Q : Post Text}
    (h : ∀ history' s' outcome, P s' → Q history' s' outcome) :
    (filesReliance actionKey permitted).Keeps i call Q history s (recordedAtOrNow recordedAt) := by
  unfold recordedAtOrNow
  split
  · exact keeps_pure (h _ _ _ hs)
  · exact keeps_lookAt looks_now trivial
      (fun s' _ _ hrely _ _ => h _ _ _ (hP.others _ _ hrely hs)) fun _ s' _ hrely => h _ _ _ (hP.others _ _ hrely hs)

/-- What an append that succeeded says of the files. -/
def Added (i : Nat) (s : ActionFiles) (state : VerificationActionJournalState) : Prop :=
  state = .queued → s.creator = some i

omit [DateArithmetic] [LocaleText] in
theorem nil_of_queued {events : List VerificationActionJournalEvent} {event : VerificationActionJournalEvent}
    (h : Follows actionKey events event) (hqueued : event.state = .queued) : events = [] := by
  have htransition := h.transition
  rw [hqueued] at htransition
  cases hlast : events.getLast? with
  | none => exact List.getLast?_eq_none_iff.mp hlast
  | some last =>
      rw [hlast, Option.map_some] at htransition
      exact absurd htransition (by cases last.state <;> decide)

omit [DateArithmetic] [LocaleText] in
/-- The event of an append is one more event of the journal, or nothing has happened. -/
theorem effect_append {generation : JournalGeneration} {event : VerificationActionJournalEvent} {s s' : ActionFiles}
    {file : Option RuntimeStateJournalRetainedText} {value : Bool} (hreads : Reads actionKey file generation)
    (hinv : FilesHold actionKey s)
    (h : effect i s (.appendJournal (generation.source.getD []) (eventLine event)) value s') :
    (value = true ∧ JournalIs actionKey s generation.readback.events ∧ ∃ physical,
      s' = appended i s (journalText generation.readback.events) (eventLine event) physical) ∨
    (value = false ∧ s' = s) := by
  rcases h with ⟨hvalue, hsame, physical, rfl⟩ | h
  · left
    obtain ⟨events, hevents⟩ := hinv.journal
    have hsource : generation.source.getD [] = journalText generation.readback.events := by
      have htext := hreads.source_append event
      rw [journalText_snoc] at htext
      exact List.append_cancel_right htext
    have htext : journalText events = journalText generation.readback.events := by
      rw [← hevents.getD, hsame, hsource]
    obtain rfl := journalText_injective hevents.chained hreads.chained htext
    exact ⟨hvalue, hevents, physical, by rw [hsource]; rfl⟩
  · exact .inr h

omit [LocaleText] in
theorem keeps_write {generation : JournalGeneration} {event : VerificationActionJournalEvent}
    {file : Option RuntimeStateJournalRetainedText} (hreads : Reads actionKey file generation)
    (hfollows : Follows actionKey generation.readback.events event) (hP : Stable actionKey i P) (hs : P s) {Q : Post Bool}
    (hasserted : ∀ s' expectedText text, P s' → Asserted s' call history (.appendJournal expectedText text))
    (hok : ∀ history' s' value, P s' → (value = true → Added i s' event.state) → Q history' s' (.ok value))
    (herror : ∀ history' s' e, P s' → Q history' s' (.error e)) :
    (filesReliance actionKey permitted).Keeps i call Q history s
      (attempt (.appendJournal (generation.source.getD []) (eventLine event))) := by
  refine keeps_attempt (fun s' _ hrely => hasserted s' _ _ (hP.others _ _ hrely hs)) ?_
  intro s₁ answer s₂ hinv hrely _ hperform
  have hs₁ := hP.others _ _ hrely hs
  have heffect {value : Bool} (h : effect i s₁ (.appendJournal (generation.source.getD []) (eventLine event)) value s₂) :
      (filesReliance actionKey permitted).Allows i s₁ s₂ ∧ P s₂ ∧ (value = true → Added i s₂ event.state) := by
    have hs₂ := hP.append _ _ _ _ _ hinv h hs₁
    rcases effect_append hreads hinv h with ⟨-, hjournal, physical, rfl⟩ | ⟨hvalue, rfl⟩
    · refine ⟨allows_append hinv hjournal hfollows physical, hs₂, fun _ hqueued => ?_⟩
      -- only the first event is `queued`
      have hnil := hjournal.eq_nil.mpr (nil_of_queued hfollows hqueued)
      rw [appended, if_pos hnil]
    · refine ⟨allows_same (r := filesReliance actionKey permitted) hinv, hs₂, fun htrue => ?_⟩
      rw [hvalue] at htrue
      cases htrue
  cases answer with
  | ok value =>
      obtain ⟨hallows, hs₂, hadded⟩ := heffect hperform
      exact ⟨hallows, hok _ _ _ hs₂ hadded⟩
  | error e =>
      rcases hperform with rfl | ⟨value, h⟩
      · exact ⟨allows_same (r := filesReliance actionKey permitted) hinv, herror _ _ _ hs₁⟩
      · obtain ⟨hallows, hs₂, -⟩ := heffect h
        exact ⟨hallows, herror _ _ _ hs₂⟩

theorem keeps_append (hP : Stable actionKey i P) (hs : P s) {input : AppendInput actionKey}
    {Q : Post VerificationActionJournalEvent}
    (hasserted : ∀ history' s' expectedText text, P s' → Asserted s' call history' (.appendJournal expectedText text))
    (hok : ∀ history' s' event, P s' → Added i s' input.state → Q history' s' (.ok event))
    (herror : ∀ history' s' e, P s' → Q history' s' (.error e)) :
    (filesReliance actionKey permitted).Keeps i call Q history s (appendVerificationActionJournalEvent evidence input) := by
  have hothers {history'} {a b : ActionFiles} {e} (ha : P a) (hrely : Others actionKey i a b) : Q history' b (.error e) :=
    herror _ _ _ (hP.others _ _ hrely ha)
  unfold appendVerificationActionJournalEvent
  rw [reparseAction_toValue]
  refine keeps_result_bind (fun action haction => ?_) fun _ _ => herror _ _ _ hs
  obtain rfl := Except.ok.inj haction
  rw [input.action.2]
  refine keeps_procedure_bind (keeps_readGeneration (fun s₁ generation hinv hrely hread => ?_) fun _ _ _ => hothers hs)
  have hs₁ := hP.others _ _ hrely hs
  refine keeps_result_bind (fun admitted hadmit => ?_) fun _ _ => herror _ _ _ hs₁
  obtain ⟨state, terminal⟩ := admitted
  have hreads := reads_of_readGeneration hread (admitEvent_ok hadmit).1
  refine keeps_procedure_bind (keeps_recordedAtOrNow hP hs₁ fun history₂ s₂ outcome hs₂ => ?_)
  cases outcome with
  | error e => exact herror _ _ _ hs₂
  | ok recordedAtText =>
      refine keeps_result_bind (fun recordedAt _ => ?_) fun _ _ => herror _ _ _ hs₂
      refine keeps_result_bind (fun note _ => ?_) fun _ _ => herror _ _ _ hs₂
      have happends := appends_newEvent hadmit hreads.chained recordedAt note
      refine keeps_procedure_bind (keeps_lookAt looks_ensureDirectory trivial
        (fun s₃ _ _ hrely₃ _ _ => ?_) fun _ _ _ => hothers hs₂)
      have hs₃ := hP.others _ _ hrely₃ hs₂
      refine keeps_procedure_bind (keeps_write hreads happends.follows hP hs₃ (fun s' _ _ hs' => hasserted _ _ _ _ hs')
        (fun history₄ s₄ value hs₄ hadded => ?_) fun _ _ _ hs₄ => herror _ _ _ hs₄)
      dsimp only
      rw [happends.state] at hadded
      split
      · rename_i hvalue
        exact keeps_pure (hok _ _ _ hs₄ (hadded hvalue))
      · exact herror _ _ _ hs₄

/-! ## Reading the claim and holding the lock -/

omit [DateArithmetic] [LocaleText] in
theorem stable_true : Stable actionKey i fun _ => True := ⟨fun _ _ _ _ => trivial, fun _ _ _ _ _ _ _ _ => trivial⟩

omit [DateArithmetic] [LocaleText] in
theorem stable_locked : Stable actionKey i fun s => s.lock = some i where
  others := fun _ _ h => h.lock
  append := fun s expectedText text value s' _ h hlock => by
    rcases h with ⟨-, -, physical, rfl⟩ | ⟨-, rfl⟩ <;> exact hlock

omit [DateArithmetic] [LocaleText] in
theorem stable_claimed (text : Text) : Stable actionKey i fun s => s.lock = some i ∧ s.claim = some text where
  others := fun _ _ h hs => ⟨h.lock hs.1, h.claim hs.1 text hs.2⟩
  append := fun s expectedText text value s' _ h hs => by
    rcases h with ⟨-, -, physical, rfl⟩ | ⟨-, rfl⟩ <;> exact hs

omit [DateArithmetic] [LocaleText] in
theorem stable_created : Stable actionKey i fun s => s.creator = some i where
  others := fun _ _ h => h.creator i
  append := fun s expectedText text value s' hinv h hs => by
    rcases h with ⟨-, -, physical, rfl⟩ | ⟨-, rfl⟩
    · exact (if_neg (hinv.created (by rw [hs]; exact Option.some_ne_none _))).trans hs
    · exact hs

omit [LocaleText] in
theorem keeps_readClaim {Q : Post (Option VerificationActionClaim)}
    (hnone : ∀ history' s', Others actionKey i s s' → Q history' s' (.ok none))
    (hsome : ∀ history' s' text claim, FilesHold actionKey s' → Others actionKey i s s' →
      permitted s' call (history ++ [⟨.claimExists, .ok true⟩]) .readClaim → s'.claim = some text →
      parseClaim text actionKey = .ok claim → Q history' s' (.ok (some claim)))
    (herror : ∀ history' s' e, Others actionKey i s s' → Q history' s' (.error e)) :
    (filesReliance actionKey permitted).Keeps i call Q history s (readVerificationActionClaim actionKey) := by
  unfold readVerificationActionClaim
  refine keeps_procedure_bind (keeps_lookAt looks_claimExists trivial (fun s₁ present _ hrely _ _ => ?_)
    fun _ _ _ hrely => herror _ _ _ hrely)
  dsimp only
  split
  · rename_i hpresent
    rw [hpresent]
    refine keeps_procedure_bind (keeps_lookAt looks_readClaim trivial (fun s₂ text hinv hrely₂ hpermitted heffect => ?_)
      fun _ _ _ hrely₂ => herror _ _ _ (hrely.trans hrely₂))
    refine keeps_result_bind (fun claim hclaim => keeps_pure ?_) fun _ _ => herror _ _ _ (hrely.trans hrely₂)
    exact hsome _ _ text _ hinv (hrely.trans hrely₂) hpermitted heffect.1 hclaim
  · exact keeps_pure (hnone _ _ hrely)

omit [LocaleText] in
/-- A deletion under the lock: of the claim, or of the lock itself. -/
theorem keeps_delete {k : FileRequest} {R : ActionFiles → Prop} (hfree : Free k) (hlock : s.lock = some i)
    (hdelete : ∀ s value s', s.lock = some i → FilesHold actionKey s → effect i s k value s' →
      (filesReliance actionKey permitted).Allows i s s' ∧ R s') (hsame : ∀ s, s.lock = some i → R s)
    {Q : Post (FileValue k)} (h : ∀ history' s' outcome, R s' → Q history' s' outcome) :
    (filesReliance actionKey permitted).Keeps i call Q history s (attempt k) := by
  refine keeps_attempt (fun _ _ _ => asserted_of_free hfree) ?_
  intro s₁ answer s₂ hinv hrely _ hperform
  have hlock₁ := hrely.lock hlock
  cases answer with
  | ok value =>
      obtain ⟨hallows, hs₂⟩ := hdelete _ _ _ hlock₁ hinv hperform
      exact ⟨hallows, h _ _ _ hs₂⟩
  | error e =>
      rcases hperform with rfl | ⟨value, heffect⟩
      · exact ⟨allows_same (r := filesReliance actionKey permitted) hinv, h _ _ _ (hsame _ hlock₁)⟩
      · obtain ⟨hallows, hs₂⟩ := hdelete _ _ _ hlock₁ hinv heffect
        exact ⟨hallows, h _ _ _ hs₂⟩

omit [LocaleText] in
theorem keeps_deleteClaim (hlock : s.lock = some i) {Q : Post Bool}
    (h : ∀ history' s' outcome, s'.lock = some i → Q history' s' outcome) :
    (filesReliance actionKey permitted).Keeps i call Q history s (attempt .deleteClaim) := by
  refine keeps_delete (k := .deleteClaim) (R := fun s => s.lock = some i) trivial hlock (fun s₁ value s₂ hlock₁ hinv heffect => ?_)
    (fun _ h => h) h
  obtain ⟨-, rfl⟩ := heffect
  exact ⟨allows_claim hinv (.inl hlock₁), hlock₁⟩

omit [LocaleText] in
theorem keeps_deleteRecoveryLock (hlock : s.lock = some i) {Q : Post Unit}
    (h : ∀ history' s' outcome, Q history' s' outcome) :
    (filesReliance actionKey permitted).Keeps i call Q history s deleteRecoveryLock := by
  unfold deleteRecoveryLock
  refine keeps_procedure_bind (keeps_delete (k := .deleteLock) (R := fun _ => True) trivial hlock (fun s₁ value s₂ hlock₁ hinv heffect => ?_)
    (fun _ _ => trivial) fun history' s' outcome _ => ?_)
  · obtain ⟨-, rfl⟩ := heffect
    exact ⟨allows_lock hinv (.inl hlock₁), trivial⟩
  · cases outcome with
    | error e => exact h _ _ _
    | ok deleted =>
        dsimp only
        split
        · exact keeps_pure (h _ _ _)
        · exact h _ _ _

omit [LocaleText] in
theorem keeps_readClaimOrUnreadable {Q : Post (Option (Option VerificationActionClaim))}
    (hsome : ∀ history' s' text claim, FilesHold actionKey s' → Others actionKey i s s' →
      permitted s' call (history ++ [⟨.claimExists, .ok true⟩]) .readClaim → s'.claim = some text →
      parseClaim text actionKey = .ok claim → Q history' s' (.ok (some (some claim))))
    (hnone : ∀ history' s' read, Others actionKey i s s' → read.join = none → Q history' s' (.ok read)) :
    (filesReliance actionKey permitted).Keeps i call Q history s (readClaimOrUnreadable actionKey) := by
  unfold readClaimOrUnreadable
  refine keeps_orElse (keeps_procedure_bind (keeps_readClaim (fun _ s₁ hrely => ?_)
    (fun _ s₁ text claim hinv hrely hpermitted htext hclaim => ?_) fun _ s₁ _ hrely => ?_))
  · exact keeps_pure (hnone _ _ _ hrely rfl)
  · exact keeps_pure (hsome _ _ text claim hinv hrely hpermitted htext hclaim)
  · exact keeps_pure (hnone _ _ _ hrely rfl)

/-- A part that ends with the lock still held, and a value of its own only where that is as said. -/
abbrev Locked {α : Type} (i : Nat) (R : α → Prop) : Post α :=
  fun _ s outcome => s.lock = some i ∧ ∀ a, outcome = .ok a → R a

omit [LocaleText] in
theorem keeps_withRecoveryLock {α : Type} {operation : ActionProcedure α} {R : α → Prop} {Q : Post (Option α)}
    (hoperation : ∀ history' s', FilesHold actionKey s' → s'.lock = some i →
      (filesReliance actionKey permitted).Keeps i call (Locked i R) history' s' operation)
    (hok : ∀ history' s' outcome, (∀ a, outcome = some a → R a) → Q history' s' (.ok outcome))
    (herror : ∀ history' s' e, Q history' s' (.error e)) :
    (filesReliance actionKey permitted).Keeps i call Q history s (withRecoveryLock operation) := by
  unfold withRecoveryLock
  refine keeps_procedure_bind (keeps_attempt (fun _ _ _ => asserted_of_free trivial) ?_)
  intro s₁ answer s₂ hinv _ _ hperform
  have hlock {value : Bool} (h : effect i s₁ .createLock value s₂) :
      (filesReliance actionKey permitted).Allows i s₁ s₂ ∧ (value = true → s₂.lock = some i) := by
    rcases h with ⟨-, hfree, rfl⟩ | ⟨rfl, rfl⟩
    · exact ⟨allows_lock hinv (.inr hfree), fun _ => rfl⟩
    · exact ⟨allows_same (r := filesReliance actionKey permitted) hinv, nofun⟩
  cases answer with
  | error e =>
      rcases hperform with rfl | ⟨value, h⟩
      · exact ⟨allows_same (r := filesReliance actionKey permitted) hinv, herror _ _ _⟩
      · exact ⟨(hlock h).1, herror _ _ _⟩
  | ok locked =>
      obtain ⟨hallows, hheld⟩ := hlock hperform
      refine ⟨hallows, ?_⟩
      dsimp only
      split
      · rename_i hlocked
        refine keeps_procedure_bind (keeps_finallyDo ((hoperation _ s₂ hallows.invariant (hheld hlocked)).mono ?_))
        intro history₃ s₃ outcome ⟨hlocked₃, houtcome⟩
        refine keeps_deleteRecoveryLock hlocked₃ fun history₄ s₄ ended => ?_
        cases outcome with
        | error e => cases ended <;> exact herror _ _ _
        | ok a =>
            cases ended with
            | error e => exact herror _ _ _
            | ok _ => exact keeps_pure (hok _ _ _ fun b hb => houtcome b (congrArg Except.ok (Option.some.inj hb)))
      · exact keeps_pure (hok _ _ _ nofun)

end Operations

end SecPlatform.VerificationAction
