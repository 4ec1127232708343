import SecPlatform.DurableExecution.Lemmas.WriterSpec

/-!
# Calls that nothing hinders

What a call does up to its first change, before the deadline and on a journal of its own limits.
-/

namespace SecPlatform.DurableExecution

open Contracts FileProgram

variable {key : Digest} {limits : WriterLimits} {source : Text} {current next : JournalObservation}
  {record : DurableRecord} {file : Option Text}

theorem boundedRead_reads (maximum : Nat) (file : Option Text) :
    JournalReads maximum file (boundedRead maximum file) := by
  unfold boundedRead
  cases file with
  | none => exact .text fun _ h => by cases h
  | some text =>
      dsimp only
      split
      · rename_i hlarge
        exact .tooLarge text _ rfl hlarge
      · rename_i hsmall
        exact .text fun _ h => by cases h; exact not_lt.mp hsmall

theorem quiet_assertDeadline : Quiet boundedRead file assertDeadline (.done (.ok ())) := .clock (.refl _)

theorem quiet_assertCumulativeLimits {limits : StoreLimits} {bytes : Nat} {reserve : Bool}
    (h : checkCumulativeLimits current limits bytes reserve = .ok ()) :
    Quiet boundedRead file (assertCumulativeLimits current limits bytes reserve) (.done (.ok ())) :=
  quiet_assertDeadline.bind (quiet_lift h)

theorem quiet_identityPath : Quiet boundedRead file (lift (identityPath key.val)) (.done (.ok key)) :=
  quiet_lift (canonicalDigest_ok.mpr rfl)

variable [Sha256]

theorem quiet_readState (h : Stored key source current) (hm : limitsMatchIntent current limits.val) :
    Quiet boundedRead (some source) (readState limits.val key.val) (.done (.ok (some (current, source)))) := by
  obtain ⟨hfits, _, hcount⟩ := h.check hm
  have hbytes : ¬limits.val.maximumStateBytes < source.utf8Length := by
    have := hfits.bytes
    omega
  have hread : boundedRead limits.val.maximumStateBytes (some source) = .ok (some source) := if_neg hbytes
  have hidentity : sameIdentity current key.val := by simp [sameIdentity, h.identity]
  have hsource : Quiet boundedRead (some source) (readSource limits.val key.val source) (.done (.ok current)) := by
    refine (quiet_lift (a := current) (by rw [h.parsed]; rfl)).bind ?_
    simp only [hidentity, hm, Bool.not_true, Bool.false_eq_true, if_false]
    exact (quiet_assertCumulativeLimits (checkCumulativeLimits_ok.mpr ⟨hfits, fun a ha _ => hcount a ha⟩)).bind
      (.refl _)
  refine quiet_assertDeadline.bind (quiet_identityPath.bind (.read ?_))
  rw [hread]
  exact hsource.bind (.refl _)

theorem quiet_required (h : Stored key source current) (hm : limitsMatchIntent current limits.val) :
    Quiet boundedRead (some source) (required limits.val key.val) (.done (.ok current)) :=
  (quiet_readState h hm).bind (.refl _)

/-- A read that nothing hinders gives the journal. -/
theorem run_read (h : Stored key source current) (hm : limitsMatchIntent current limits.val) :
    (read limits.val key.val).run boundedRead (some source) = (.ok (some current), some source) :=
  ((quiet_readState h hm).bind (.refl _)).run

/-- A record that fits comes to its append. -/
theorem quiet_append {build : JournalObservation → Except StoreFailure DurableRecord}
    {equivalent : DurableRecord → Bool} (h : Stored key source current) (hm : limitsMatchIntent current limits.val)
    (hany : current.records.any equivalent = false) (hbuild : build current = .ok record)
    (hnext : observeDurableExecutionJournal (current.records ++ [record]) = .ok next)
    (hcheck : checkCumulativeLimits next limits.val
      (source.utf8Length + (encodeDurableExecutionRecord record ++ [lineBreak]).utf8Length) true = .ok ()) :
    ∃ rest, rest true = pure next ∧ Quiet boundedRead (some source) (append limits.val key.val build equivalent)
      (.append source (encodeDurableExecutionRecord record ++ [lineBreak]) rest) := by
  refine ⟨fun appended => if appended then pure next else do
    let concurrent ← required limits.val key.val
    if concurrent.records.any equivalent then return concurrent
    else lift (failStore .conflict "journal changed during CAS append."), rfl, ?_⟩
  refine quiet_assertDeadline.bind ((quiet_readState h hm).bind ?_)
  dsimp only
  rw [hany, if_neg Bool.false_ne_true]
  refine (quiet_lift hbuild).bind ((quiet_lift (a := next) (by rw [observeJournal, hnext]; rfl)).bind ?_)
  refine (quiet_assertCumulativeLimits hcheck).bind (quiet_identityPath.bind (quiet_assertDeadline.bind ?_))
  exact .refl _

/-- A new journal comes to its creation. -/
theorem quiet_createIntent {input : CreateIntentInput} {intent : DurableRecord}
    (haddress : input.operationKeyDigest = key.val) (hintent : intentRecord limits.val input = .ok intent)
    (hnext : observeDurableExecutionJournal [intent] = .ok next)
    (hcheck : checkCumulativeLimits next limits.val
      (encodeDurableExecutionRecord intent ++ [lineBreak]).utf8Length false = .ok ()) :
    ∃ rest, rest true = pure next ∧ Quiet boundedRead none (createIntent limits.val input)
      (.create (encodeDurableExecutionRecord intent ++ [lineBreak]) rest) := by
  have hobserve : observeJournal [intent] = .ok next := by rw [observeJournal, hnext]; rfl
  refine ⟨fun created => if created then lift (observeJournal [intent]) else do
    let current ← required limits.val input.operationKeyDigest
    if current.intent.recordDigest = intent.recordDigest then return current
    else lift (failStore .conflict "OperationKey already binds another intent."), by simp [hobserve, lift]; rfl, ?_⟩
  unfold createIntent
  rw [haddress]
  refine quiet_identityPath.bind (quiet_assertDeadline.bind ((quiet_lift hintent).bind ((quiet_lift hobserve).bind ?_)))
  exact (quiet_assertCumulativeLimits hcheck).bind (quiet_assertDeadline.bind (.refl _))

/-- A recovered retry that fits comes to its append; once that is refused it reads the journal again. -/
theorem quiet_retry {resolutionInput : AppendAttemptResolutionInput} {attemptInput : AppendAttemptStartInput}
    {active : AttemptObservation} {admitted : JournalObservation} {resolution start : DurableRecord}
    (haddress : resolutionInput.operationKeyDigest = key.val) (h : Stored key source current)
    (hm : limitsMatchIntent current limits.val) (hactive : current.activeAttempt = some active)
    (hnonce : active.start.fields.attemptNonceDigest.val = resolutionInput.attemptNonceDigest)
    (hreadback : (active.domainReadback.map fun readback => readback.fields.domainReadbackReceiptDigest.val) =
      some resolutionInput.domainReadbackReceiptDigest)
    (hsame : attemptInput.operationKeyDigest = resolutionInput.operationKeyDigest)
    (hresolution : resolutionRecord resolutionInput .retryAdmissionReference active current = .ok resolution)
    (hadmitted : observeDurableExecutionJournal (current.records ++ [resolution]) = .ok admitted)
    (hstart : attemptStartRecord attemptInput resolutionInput.resolutionReferenceDigest admitted = .ok start)
    (hnext : observeDurableExecutionJournal (admitted.records ++ [start]) = .ok next)
    (hcheck : checkCumulativeLimits next limits.val
      (source.utf8Length + (journalText [resolution, start]).utf8Length) true = .ok ()) :
    ∃ rest, rest true = pure next ∧
      rest false = (do
        let concurrent ← required limits.val key.val
        if concurrentRetry resolutionInput attemptInput concurrent then return concurrent
        else lift (failStore .conflict "journal changed during atomic retry transition.")) ∧
      Quiet boundedRead (some source) (appendRecoveredRetryAttemptStart limits.val resolutionInput attemptInput)
        (.append source (journalText [resolution, start]) rest) := by
  refine ⟨fun appended => if appended then pure next else do
    let concurrent ← required limits.val key.val
    if concurrentRetry resolutionInput attemptInput concurrent then return concurrent
    else lift (failStore .conflict "journal changed during atomic retry transition."), rfl, rfl, ?_⟩
  have htext : journalText [resolution, start] = encodeDurableExecutionRecord resolution ++ [lineBreak] ++
      (encodeDurableExecutionRecord start ++ [lineBreak]) := by simp [journalText]
  rw [htext] at hcheck ⊢
  unfold appendRecoveredRetryAttemptStart
  rw [haddress]
  refine quiet_assertDeadline.bind ((quiet_readState h hm).bind ?_)
  dsimp only
  rw [hactive]
  dsimp only
  rw [if_neg (by simp [hnonce, hreadback, hsame, haddress])]
  refine (quiet_lift hresolution).bind ((quiet_lift (a := admitted) (by rw [observeJournal, hadmitted]; rfl)).bind ?_)
  refine (quiet_lift hstart).bind ((quiet_lift (a := next) (by rw [observeJournal, hnext]; rfl)).bind ?_)
  refine (quiet_assertCumulativeLimits hcheck).bind (quiet_identityPath.bind (quiet_assertDeadline.bind ?_))
  exact .refl _

end SecPlatform.DurableExecution

/-!
## Runs of writers

Every run keeps the file a stored journal. When the reads of a run are sound, its answers are there for good.
-/

namespace SecPlatform.DurableExecution

open Contracts FileSystem

variable [Sha256] {key : Digest} {strict : Prop} {s s' : JournalSystem key}
  {a : Action (WriterCall key) CodeUnit JournalReadFailure}

/-! ### Safety -/

theorem guarded_of_soundReads (h : JournalSystem.SoundReads s a) : Guarded (writerSpec key True) s a := by
  unfold Guarded
  split
  · exact fun call hcall _ hlost => h call hcall hlost
  · trivial

theorem guarded_of_not_strict : Guarded (writerSpec key False) s a := by
  unfold Guarded
  split
  · exact fun _ _ hstrict => hstrict.elim
  · trivial

theorem Stored.countP_asks {source : Text} {obs : JournalObservation} (h : Stored key source obs)
    {call : WriterCall key} {ask : DurableRecord → Bool} (hask : ask ∈ call.asks) : obs.records.countP ask ≤ 1 := by
  obtain ⟨_, _, haccepts, _⟩ := observeDurableExecutionJournal_ok.mp h.observed
  exact haccepts.countP_asks hask

theorem Stored.activeNonces_le {source : Text} {obs : JournalObservation} (h : Stored key source obs) :
    (activeNonces obs.records).length ≤ 1 := by
  obtain ⟨_, st, haccepts, _⟩ := observeDurableExecutionJournal_ok.mp h.observed
  rw [haccepts.observed.activeNonces]
  cases st.active <;> simp

theorem safe_of_invariant (h : Invariant JournalReads (writerSpec key True) s) : JournalSystem.Safe s := by
  refine ⟨fun text htext => ?_, fun call hcall answer hanswer => ?_⟩
  · obtain ⟨obs, hstored⟩ := h.valid text htext
    exact ⟨obs, hstored.parsed, hstored.activeNonces_le⟩
  · obtain ⟨k, text, hfile, hk, hparsed, hasks⟩ := h.returned hcall hanswer
    obtain ⟨obs, hstored⟩ := h.valid text hfile
    obtain ⟨rfl, hsealed, _⟩ := parseDurableExecutionJournal_ok.mp hparsed
    rw [hstored.text] at hk
    have hprefix := isPrefix_of_journalText hsealed hstored.sealed hk
    refine ⟨text, obs, hfile, hstored.parsed, hprefix, hparsed, fun ask hask => ?_⟩
    obtain ⟨r, hr, hp⟩ := hasks trivial ask hask
    exact countP_eq_one (hstored.countP_asks hask) ⟨r, hprefix.subset hr, hp⟩

theorem asks_ne_nil (call : WriterCall key) : ∃ ask, ask ∈ call.asks := by
  unfold WriterCall.asks
  cases call.request <;> exact ⟨_, List.mem_cons_self⟩

/-- A change of the file adds what was not there. -/
theorem safeStep_of_changes (h : JournalSystem.Safe s) (hafter : (writerSpec key strict).ValidFile s'.file)
    (hchanges : Changes (writerSpec key strict) s a s') : JournalSystem.SafeStep s a s' := by
  rcases hchanges with hsame | ⟨i, call, text, ha, hcall, hfile, added, hsealed, rfl, hadds, hasks⟩
  · exact ⟨.inl hsame, .inl hsame⟩
  obtain ⟨next, hnext⟩ := hafter _ hfile
  have hfresh : ∀ ask ∈ call.request.asks, ∀ text obs, s.file = some text →
      parseDurableExecutionJournal text = .ok obs → obs.records.countP ask = 0 := by
    intro ask hask text obs htext hparsed
    obtain ⟨rfl, hobs, _⟩ := parseDurableExecutionJournal_ok.mp hparsed
    have hrecords : next.records = obs.records ++ added := by
      refine journalText_injective hnext.sealed (List.forall_mem_append.mpr ⟨hobs, hsealed⟩) ?_
      rw [← hnext.text, htext, journalText_append]
      rfl
    have hone := hnext.countP_asks hask
    rw [hrecords] at hone
    rw [List.countP_eq_zero]
    intro r hr
    rw [notMem_of_countP hone (hasks ask hask) r hr]
    exact Bool.false_ne_true
  refine ⟨.inr ⟨i, call, added, ha, hcall, hsealed, hadds, hfile, fun ask hask => ⟨hasks ask hask, hfresh ask hask⟩⟩,
    .inr fun j other hj hother again hagain hrequest answer hanswer => ?_⟩
  obtain rfl : i = j := by
    rcases ha with rfl | rfl <;> rcases hj with hj | hj <;> cases hj <;> rfl
  rw [hcall] at hother
  cases hother
  obtain ⟨text, obs, htext, hparsed, _, _, hpresent⟩ := h.answered again hagain answer hanswer
  obtain ⟨ask, hask⟩ := asks_ne_nil call.request
  have hzero := hfresh ask hask text obs htext hparsed
  rw [hpresent ask (hrequest ▸ hask)] at hzero
  cases hzero

/-- Every step of a sound run is safe. -/
theorem safeStep_of_invariant (h : Invariant JournalReads (writerSpec key True) s)
    (hstep : Step WriterCall.program JournalReads s a s') (ha : JournalSystem.SoundReads s a) :
    JournalSystem.SafeStep s a s' := by
  obtain ⟨hinvariant, hchanges⟩ := hstep.invariant meets_program (guarded_of_soundReads ha) h
  exact safeStep_of_changes (safe_of_invariant h) hinvariant.valid hchanges

/-! ### Calls on their own -/

section Alone

variable {permitted : JournalSystem key → Action (WriterCall key) CodeUnit JournalReadFailure → Prop}
  {calls : List (FileCall (WriterCall key) CodeUnit JournalReadFailure StoreFailure JournalObservation)}
  {call : WriterCall key} {source : Text} {current next : JournalObservation} {record : DurableRecord}

theorem permitsUnlost_soundReads : PermitsUnlost fun s : JournalSystem key => JournalSystem.SoundReads s := by
  intro s a h
  unfold JournalSystem.SoundReads
  split
  · intro call hcall hlost
    rw [h _ _ call rfl hcall] at hlost
    cases hlost
  · trivial

/-- A new journal is created by a call that nothing hinders. -/
theorem reachable_createIntent (hp : PermitsUnlost permitted) {input : CreateIntentInput} {intent : DurableRecord}
    (h : Reachable WriterCall.program JournalReads permitted ⟨none, calls⟩) (hrequest : call.request = .createIntent input)
    (hintent : intentRecord call.limits.val input = .ok intent)
    (hnext : observeDurableExecutionJournal [intent] = .ok next)
    (hcheck : checkCumulativeLimits next call.limits.val (journalText [intent]).utf8Length false = .ok ()) :
    Reachable WriterCall.program JournalReads permitted ⟨some (journalText [intent]), calls ++ [⟨call, pure next, false⟩]⟩ ∧
      Stored key (journalText [intent]) next := by
  have haddress : input.operationKeyDigest = key.val := by
    have := call.address
    rwa [hrequest] at this
  rw [journalText_singleton] at hcheck ⊢
  obtain ⟨rest, hrest, hquiet⟩ := quiet_createIntent haddress hintent hnext hcheck
  have hprogram : call.program = createIntent call.limits.val input := by rw [WriterCall.program, hrequest]; rfl
  rw [← hprogram] at hquiet
  have hcreated := (h.issue boundedRead_reads hp hquiet).created_last hp
  rw [hrest] at hcreated
  exact ⟨hcreated, stored_intent haddress hintent hnext hcheck⟩

/-- A record is appended by a call that nothing hinders. -/
theorem reachable_append (current next : JournalObservation) (hp : PermitsUnlost permitted)
    {build : JournalObservation → Except StoreFailure DurableRecord} {equivalent : DurableRecord → Bool}
    (h : Reachable WriterCall.program JournalReads permitted ⟨some (journalText current.records), calls⟩)
    (hstored : Stored key (journalText current.records) current) (hm : limitsMatchIntent current call.limits.val)
    (hprogram : call.program = append call.limits.val key.val build equivalent)
    (hany : current.records.any equivalent = false) (hbuild : build current = .ok record) (hsealed : WellSealed record)
    (hnext : observeDurableExecutionJournal (current.records ++ [record]) = .ok next)
    (hcheck : checkCumulativeLimits next call.limits.val
      ((journalText current.records).utf8Length + (journalText [record]).utf8Length) true = .ok ()) :
    Reachable WriterCall.program JournalReads permitted
        ⟨some (journalText next.records), calls ++ [⟨call, pure next, false⟩]⟩ ∧
      Stored key (journalText next.records) next := by
  rw [observe_records hnext, journalText_append]
  rw [journalText_singleton] at hcheck ⊢
  obtain ⟨rest, hrest, hquiet⟩ := quiet_append hstored hm hany hbuild hnext hcheck
  rw [← hprogram] at hquiet
  have happended := (h.issue boundedRead_reads hp hquiet).appended_last hp
  rw [hrest] at happended
  exact ⟨happended, hstored.append_record hm hsealed hnext hcheck⟩

end Alone

end SecPlatform.DurableExecution
