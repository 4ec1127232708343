import SecPlatform.Library.Lemmas.JsonObject
import SecPlatform.Library.Run
import SecPlatform.VerificationSession.Journal

/-!
# Accepted journals

What the reader accepts is well formed, and the text of an accepted journal with the line of an event that
passes behind it is accepted again.
-/

namespace SecPlatform.VerificationSession

open Contracts

/-! ## Well-formed readings -/

/-- The stages that the events complete, in order. -/
def completedStages (events : List VerificationSessionJournalEvent) : List VerificationSessionStage :=
  (events.filter fun event => event.kind = .completed).map fun event => event.targetStage

/-- The event is about the next stage or, when it completes none, about the last completed one. -/
def Targets (before : List VerificationSessionJournalEvent) (event : VerificationSessionJournalEvent) : Prop :=
  event.targetStage.index ≤ (completedStages before).length ∧
    (event.kind = .completed → event.targetStage.index = (completedStages before).length) ∧
    (completedStages before).length ≤ event.targetStage.index + 1

structure Reading.WellFormed (reading : Reading) : Prop where
  previous : reading.previous = reading.events.getLast?
  sequence : ∀ i event, reading.events[i]? = some event → event.sequence = i + 1
  completed : reading.completedStageIndex = (completedStages reading.events).length - 1
  stages : completedStages reading.events <+: verificationSessionStages
  targets : EachAfter Targets reading.events

theorem mem_stages (stage : VerificationSessionStage) : stage ∈ verificationSessionStages := by
  cases stage <;> decide

/-- A stage stands at its index. -/
theorem getElem?_index {stage : VerificationSessionStage} {n : Nat} (h : stage.index = n) :
    verificationSessionStages[n]? = some stage := by
  obtain rfl : verificationSessionStages.idxOf stage = n := Int.ofNat_inj.mp h
  exact List.getElem?_idxOf (mem_stages stage)

theorem assertTarget_ok {sequence : Nat} {targetStage : VerificationSessionStage}
    {kind : VerificationSessionJournalEventKind} {completedStageIndex : Int} :
    assertTarget sequence targetStage kind completedStageIndex = .ok () ↔
      targetStage.index ≤ completedStageIndex + 1 ∧
        (kind = .completed → targetStage.index = completedStageIndex + 1) ∧
        (kind ≠ .completed → max 0 completedStageIndex ≤ targetStage.index) := by
  unfold assertTarget
  split
  · rename_i h
    exact ⟨nofun, fun h' => absurd h'.1 (by omega)⟩
  · split
    · rename_i h
      exact ⟨nofun, fun h' => absurd (h'.2.1 h.1) h.2⟩
    · split
      · rename_i h
        exact ⟨nofun, fun h' => absurd (h'.2.2 h.1) (by omega)⟩
      · rename_i h₁ h₂ h₃
        refine ⟨fun _ => ⟨by omega, fun hk => ?_, fun hk => ?_⟩, fun _ => rfl⟩
        · exact not_not.mp fun h => h₂ ⟨hk, h⟩
        · exact not_lt.mp fun h => h₃ ⟨hk, h⟩

theorem wellFormed_initial : Reading.initial.WellFormed where
  previous := rfl
  sequence := nofun
  completed := rfl
  stages := List.nil_prefix
  targets := .nil

theorem completedStages_append (events : List VerificationSessionJournalEvent) (event : VerificationSessionJournalEvent) :
    completedStages (events ++ [event]) =
      completedStages events ++ if event.kind = .completed then [event.targetStage] else [] := by
  simp only [completedStages, List.filter_append, List.map_append]
  by_cases h : event.kind = .completed <;> simp [h]

section Reading

variable [Sha256] {sessionRevision : Digest} {reading reading' : Reading} {line : Text}
  {event : VerificationSessionJournalEvent}

/-- What an accepted event says of its place. -/
theorem parseEvent_ok {candidate : Value} {sequence : Nat} {previous : Option VerificationSessionJournalEvent}
    {completedStageIndex : Int}
    (h : parseEvent candidate sessionRevision sequence previous completedStageIndex = .ok event) :
    event.sequence = sequence ∧
      assertTarget sequence event.targetStage event.kind completedStageIndex = .ok () := by
  cases candidate with
  | obj members =>
      unfold parseEvent parseEventMembers at h
      obtain ⟨-, h⟩ := check_bind_eq_ok.mp h
      obtain ⟨-, h⟩ := check_bind_eq_ok.mp h
      obtain ⟨-, h⟩ := check_bind_eq_ok.mp h
      obtain ⟨-, h⟩ := check_bind_eq_ok.mp h
      obtain ⟨targetStage, -, h⟩ := bind_eq_ok.mp h
      obtain ⟨kind, -, h⟩ := bind_eq_ok.mp h
      obtain ⟨htarget, h⟩ := check_bind_eq_ok.mp h
      obtain ⟨previousDigest, -, h⟩ := bind_eq_ok.mp h
      obtain ⟨-, h⟩ := check_bind_eq_ok.mp h
      obtain ⟨operationId, -, h⟩ := bind_eq_ok.mp h
      obtain ⟨receiptDigest, -, h⟩ := bind_eq_ok.mp h
      obtain ⟨recordedAt, -, h⟩ := bind_eq_ok.mp h
      obtain ⟨note, -, h⟩ := bind_eq_ok.mp h
      obtain ⟨-, h⟩ := check_bind_eq_ok.mp h
      cases h
      exact ⟨rfl, htarget⟩
  | null | bool | num | str | arr => cases h

theorem readLine_ok : readLine sessionRevision reading line = .ok reading' ↔ ∃ candidate event,
    parseLine line (reading.events.length + 1) = .ok candidate ∧
      parseEvent candidate sessionRevision (reading.events.length + 1) reading.previous reading.completedStageIndex =
        .ok event ∧
      reading' = ⟨reading.events ++ [event], some event,
        if event.kind = .completed then reading.completedStageIndex + 1 else reading.completedStageIndex⟩ := by
  unfold readLine
  constructor
  · intro h
    obtain ⟨candidate, hcandidate, h⟩ := bind_eq_ok.mp h
    obtain ⟨event, hevent, h⟩ := bind_eq_ok.mp h
    cases h
    exact ⟨candidate, event, hcandidate, hevent, rfl⟩
  · rintro ⟨candidate, event, hcandidate, hevent, rfl⟩
    rw [hcandidate, ok_bind, hevent]
    rfl

/-- One accepted line keeps a reading well formed. -/
theorem wellFormed_readLine (hwf : reading.WellFormed) (h : readLine sessionRevision reading line = .ok reading') :
    reading'.WellFormed := by
  obtain ⟨candidate, event, -, hevent, rfl⟩ := readLine_ok.mp h
  obtain ⟨hsequence, htarget⟩ := parseEvent_ok hevent
  obtain ⟨hnext, hcompleted, hothers⟩ := assertTarget_ok.mp htarget
  rw [hwf.completed] at hnext hcompleted hothers
  refine ⟨by simp, fun i e he => ?_, ?_, ?_, hwf.targets.snoc ⟨by omega, fun hk => ?_, ?_⟩⟩
  · rw [List.getElem?_append] at he
    split at he
    · exact hwf.sequence i e he
    · obtain ⟨hi, rfl⟩ : i - reading.events.length = 0 ∧ _ := by simpa [List.getElem?_singleton] using he
      omega
  · simp only [completedStages_append, hwf.completed]
    split <;> simp
  · simp only [completedStages_append]
    split
    · -- the stage completed is the one behind the completed ones
      rename_i hk
      have hindex : event.targetStage.index = ((completedStages reading.events).length : Nat) := by
        have := hcompleted hk
        omega
      have hstage := getElem?_index hindex
      obtain ⟨rest, hrest⟩ := hwf.stages
      rw [← hrest, List.getElem?_append_right le_rfl, Nat.sub_self] at hstage
      obtain ⟨tail, rfl⟩ : ∃ tail, rest = event.targetStage :: tail := by
        cases rest with
        | nil => cases hstage
        | cons stage tail => exact ⟨tail, by rw [Option.some.inj hstage]⟩
      exact ⟨tail, by rw [← hrest]; simp⟩
    · rw [List.append_nil]
      exact hwf.stages
  · have := hcompleted hk
    omega
  · by_cases hk : event.kind = .completed
    · have := hcompleted hk
      omega
    · have := hothers hk
      omega

theorem readText_ok {source : Text} : readText sessionRevision source = .ok reading ↔
    source.getLast? = some lineBreak ∧
      (Text.splitAt lineBreak source.dropLast).foldlM (readLine sessionRevision) .initial = .ok reading := by
  unfold readText
  split
  · rename_i h
    exact ⟨nofun, fun h' => absurd h'.1 h⟩
  · rename_i h
    simp [not_not.mp h]

theorem wellFormed_readText {source : Text} (h : readText sessionRevision source = .ok reading) : reading.WellFormed :=
  foldlM_invariant (P := Reading.WellFormed) (fun _ _ _ hwf h => wellFormed_readLine hwf h) wellFormed_initial
    (readText_ok.mp h).2

end Reading

/-! ## The line of an event -/

section Lines

variable (event : VerificationSessionJournalEvent)

def VerificationSessionJournalEvent.members : List (Text × Value) :=
  event.toUnsignedEvent.members ++ [(Text.ofString "eventDigest", .str event.eventDigest.val)]

theorem toValue_eq : event.toValue = .obj event.members := rfl

theorem keys_members : event.members.map Prod.fst = eventKeys := rfl

theorem member_cases {m : Text × Value} (h : m ∈ event.members) :
    m.2 = .null ∨ (∃ t, m.2 = .str t) ∨ ∃ n, m.2 = .num (.ofNat n) := by
  have hdigest (d : Option Digest) : nullableDigest d = .null ∨ (∃ t, nullableDigest d = .str t) := by
    cases d <;> simp [nullableDigest]
  have htext (t : Option Text) : nullableText t = .null ∨ (∃ s, nullableText t = .str s) := by
    cases t <;> simp [nullableText]
  simp only [VerificationSessionJournalEvent.members, UnsignedEvent.members, List.cons_append, List.nil_append,
    List.mem_cons, List.not_mem_nil, or_false] at h
  rcases h with rfl | rfl | rfl | rfl | rfl | rfl | rfl | rfl | rfl | rfl | rfl
  any_goals exact .inr (.inl ⟨_, rfl⟩)
  · exact .inr (.inr ⟨_, rfl⟩)
  · exact (hdigest _).imp id .inl
  · exact (hdigest _).imp id .inl
  · exact (htext _).imp id .inl
  · exact (hdigest _).imp id .inl

theorem exact_members : ∀ m ∈ event.members, m.2.Exact := by
  intro m hm
  rcases member_cases event hm with h | ⟨t, h⟩ | ⟨n, h⟩
  · rw [h]; trivial
  · rw [h]; trivial
  · rw [h]; exact JsNumber.read_literal? (JsNumber.isFinite_ofNat n) (JsNumber.ofNat_ne_negZero n)

theorem ofTree_members : ∀ m ∈ event.members, Json.ofTree m.2 = m.2 := by
  intro m hm
  rcases member_cases event hm with h | ⟨t, h⟩ | ⟨n, h⟩ <;> rw [h] <;> rfl

/-- The line of an event is read back as the event. -/
theorem parseLine_toValue (sequence : Nat) : parseLine (Json.render event.toValue) sequence = .ok event.toValue := by
  have hparse : Json.parse (Json.render (.obj event.members : Value)) = some (.obj event.members) :=
    Json.parse_render_obj (exact_members event) (by rw [keys_members]; decide) (by rw [keys_members]; decide)
      (ofTree_members event)
  rw [toValue_eq, parseLine, hparse]

theorem lineBreak_notMem_toValue : lineBreak ∉ Json.render event.toValue :=
  Json.lineBreak_notMem_render _ (Json.exactMembers_iff.mpr (exact_members event))

end Lines

section Append

variable [Sha256] {sessionRevision : Digest} {file : Option Text} {current : VerificationSessionJournalReadback}
  {event parsed : VerificationSessionJournalEvent}

theorem readFile_some_ok {source : Text} : readFile sessionRevision (some source) = .ok current ↔
    ∃ reading, readText sessionRevision source = .ok reading ∧ reading.readback = current := map_eq_ok

/-- What is accepted of a file is well formed. -/
theorem wellFormed_readFile (h : readFile sessionRevision file = .ok current) :
    ∃ reading : Reading, reading.WellFormed ∧ reading.readback = current := by
  cases file with
  | none => exact ⟨_, wellFormed_initial, Except.ok.inj h⟩
  | some source =>
      obtain ⟨reading, hreading, rfl⟩ := readFile_some_ok.mp h
      exact ⟨reading, wellFormed_readText hreading, rfl⟩

/-- A journal stays accepted when the line of an event that passes behind it is appended. -/
theorem readFile_append (hread : readFile sessionRevision file = .ok current)
    (hevent : parseEvent event.toValue sessionRevision (current.events.length + 1) current.latestEvent
      current.completedStageIndex = .ok parsed) :
    ∃ readback, readFile sessionRevision (some (file.getD [] ++ eventLine event)) = .ok readback ∧
      readback.events = current.events ++ [parsed] := by
  have hlast (s : Text) : (s ++ eventLine event).getLast? = some lineBreak := by
    rw [eventLine, ← List.append_assoc, List.getLast?_concat]
  let next : Reading := ⟨current.events ++ [parsed], some parsed,
    if parsed.kind = .completed then current.completedStageIndex + 1 else current.completedStageIndex⟩
  have hline (reading : Reading) (h : reading.readback = current) :
      readLine sessionRevision reading (Json.render event.toValue) = .ok next := by
    subst h
    exact readLine_ok.mpr ⟨_, _, parseLine_toValue event _, hevent, rfl⟩
  cases file with
  | none =>
      refine ⟨next.readback, readFile_some_ok.mpr ⟨next, readText_ok.mpr ⟨hlast _, ?_⟩, rfl⟩, rfl⟩
      rw [Option.getD_none, List.nil_append, eventLine, List.dropLast_concat,
        Text.splitAt_of_notMem (lineBreak_notMem_toValue event), List.foldlM_cons, hline _ (Except.ok.inj hread), ok_bind]
      rfl
  | some source =>
      obtain ⟨reading, hreading, hback⟩ := readFile_some_ok.mp hread
      obtain ⟨hend, hlines⟩ := readText_ok.mp hreading
      refine ⟨next.readback, readFile_some_ok.mpr ⟨next, readText_ok.mpr ⟨hlast _, ?_⟩, rfl⟩, rfl⟩
      rw [Option.getD_some, eventLine, Text.splitAt_dropLast_append hend (lineBreak_notMem_toValue event),
        List.foldlM_append, hlines, ok_bind, List.foldlM_cons, hline _ hback, ok_bind]
      rfl

end Append

end SecPlatform.VerificationSession
