import SecPlatform.Upgrade.Lemmas.Apply
import SecPlatform.Upgrade.Lemmas.MigrationRules

/-!
# The apply lifecycle keeps its backup and never undoes a commit

The law of a run of the lifecycle, whatever the injected operations answer, and exactly when it holds.
-/

namespace SecPlatform.Upgrade

open CallM

variable {Backup : Type} {artifacts : UpgradeArtifacts} {input : UpgradeApplyInput}

/-! ## What a call did -/

namespace UpgradeEvent

def restores : UpgradeEvent Backup → Bool
  | ⟨.restore _, _⟩ => true
  | _ => false

def restored : UpgradeEvent Backup → Bool
  | ⟨.restore _, .ok _⟩ => true
  | _ => false

def restoreFailed : UpgradeEvent Backup → Bool
  | ⟨.restore _, .error _⟩ => true
  | _ => false

def publishes : UpgradeEvent Backup → Bool
  | ⟨.publish _, _⟩ => true
  | _ => false

def publicationFailed : UpgradeEvent Backup → Bool
  | ⟨.publish _, .error _⟩ => true
  | _ => false

/-- A terminal of a failure is published. -/
def publishesFailure : UpgradeEvent Backup → Bool
  | ⟨.publishExecutionTerminal _, _⟩ => true
  | _ => false

def publishesRolledBack : UpgradeEvent Backup → Bool
  | ⟨.publishExecutionTerminal terminal, _⟩ => terminal.settlement = .rolledBack
  | _ => false

def retires : UpgradeEvent Backup → Bool
  | ⟨.retireBackup .., _⟩ => true
  | _ => false

/-- The first call that changes the workspace. -/
def begins : UpgradeEvent Backup → Bool
  | ⟨.clearExecutionTerminal, _⟩ => true
  | _ => false

/-- A call that should tell what a failed publication did, and throws itself. -/
def classificationFailed : UpgradeEvent Backup → Bool
  | ⟨.resolvePublication _, .error _⟩ | ⟨.isBeforeEffectFailure _, .error _⟩ => true
  | _ => false

/-- The calls that publish the applied terminal or tell what that did. -/
def concernsPublication : UpgradeEvent Backup → Bool
  | ⟨.publish _, _⟩ | ⟨.resolvePublication _, _⟩ | ⟨.isBeforeEffectFailure _, _⟩ => true
  | _ => false

end UpgradeEvent

open UpgradeEvent

/-- No publication of the applied terminal took effect: each one threw, the terminal is absent and its failure
came before any effect. -/
def KnownUnpublished (events : List (UpgradeEvent Backup)) : Prop :=
  ∀ expected answer, ⟨.publish expected, answer⟩ ∈ events → ∃ failure, answer = .error failure ∧
    ⟨.resolvePublication expected, .ok .absent⟩ ∈ events ∧ ⟨.isBeforeEffectFailure failure, .ok true⟩ ∈ events

/-- The law of a lifecycle. A terminal that was or may have been published is never rolled back; otherwise, once
the workspace may have changed, it is restored exactly once, before any failure terminal. The backup is retired at
most once, only after the restore that is needed, and not at all while the commit or its durability is open. -/
structure LifecycleLaw (events : List (UpgradeEvent Backup)) (outcome : Except Thrown UpgradeAppliedWorkspaceResult) :
    Prop where
  keepsCommit : ¬ KnownUnpublished events →
    events.Pairwise (fun e later => e.publishes → ¬ later.restores) ∧ ∀ e ∈ events, ¬ e.publishesRolledBack
  restoresOnce : KnownUnpublished events → (∃ e ∈ events, e.begins) → events.countP restores = 1
  restoresFirst : events.Pairwise fun e later => e.publishesFailure ∨ e.retires → ¬ later.restores
  reportsRestored : KnownUnpublished events → ∀ e ∈ events, e.publishesFailure → events.countP restores = 1
  retiresOnce : events.countP retires ≤ 1
  retiresRestored : ∀ e ∈ events, e.retires →
    (∀ r ∈ events, ¬ r.restoreFailed) ∧
      (KnownUnpublished events → (∃ b ∈ events, b.begins) → ∃ r ∈ events, r.restored) ∧
      (¬ KnownUnpublished events → ∀ p ∈ events, ¬ p.publicationFailed)
  returnsApplied : ∀ r, outcome = .ok r → ∃ expected, r.upgradeExecutionTerminal.settlement = .applied ∧
    ⟨.publish expected, .ok r.upgradeExecutionTerminal⟩ ∈ events ∧
      ⟨.recordGeneratedArtifacts r.lock, .ok ()⟩ ∈ events

/-! ## Runs without and with a restore -/

variable {events : List (UpgradeEvent Backup)} {outcome : Except Thrown UpgradeAppliedWorkspaceResult}

/-- A call that neither restores nor publishes a failure terminal nor retires the backup. -/
def Calm (e : UpgradeEvent Backup) : Prop := e.restores = false ∧ e.publishesFailure = false ∧ e.retires = false

theorem restoreFailed_restores {e : UpgradeEvent Backup} (h : e.restoreFailed) : e.restores := by
  obtain ⟨k, answer⟩ := e
  cases k <;> first | rfl | cases h

theorem publishesRolledBack_publishesFailure {e : UpgradeEvent Backup} (h : e.publishesRolledBack) :
    e.publishesFailure := by
  obtain ⟨k, answer⟩ := e
  cases k <;> first | rfl | cases h

theorem calm_of_prepares {e : UpgradeEvent Backup} (h : e.request.Prepares) : Calm e := by
  obtain ⟨k, answer⟩ := e
  cases k <;> first | exact ⟨rfl, rfl, rfl⟩ | cases h

theorem law_without_restore (hrestores : ∀ e ∈ events, ¬ e.restores) (hreports : ∀ e ∈ events, ¬ e.publishesFailure)
    (hknown : KnownUnpublished events → ¬ ∃ e ∈ events, e.begins) (honce : events.countP retires ≤ 1)
    (hretires : ∀ e ∈ events, e.retires → ∀ p ∈ events, ¬ p.publicationFailed)
    (hreturns : ∀ r, outcome = .ok r → ∃ expected, r.upgradeExecutionTerminal.settlement = .applied ∧
      ⟨.publish expected, .ok r.upgradeExecutionTerminal⟩ ∈ events ∧
        ⟨.recordGeneratedArtifacts r.lock, .ok ()⟩ ∈ events) :
    LifecycleLaw events outcome where
  keepsCommit := fun _ => ⟨List.pairwise_of_forall_mem_list fun _ _ e he _ => hrestores e he,
    fun e he h => hreports e he (publishesRolledBack_publishesFailure h)⟩
  restoresOnce := fun hunpublished hbegan => absurd hbegan (hknown hunpublished)
  restoresFirst := List.pairwise_of_forall_mem_list fun _ _ e he _ => hrestores e he
  reportsRestored := fun _ e he h => absurd h (hreports e he)
  retiresOnce := honce
  retiresRestored := fun e he h => ⟨fun r hr hfailed => hrestores r hr (restoreFailed_restores hfailed),
    fun hunpublished hbegan => absurd hbegan (hknown hunpublished), fun _ => hretires e he h⟩
  returnsApplied := hreturns

theorem calm_not_failed {e : UpgradeEvent Backup} (h : Calm e) : ¬ e.restoreFailed := fun hfailed =>
  absurd (restoreFailed_restores hfailed) (by simp [h.1])

theorem reports_calls {settlement : Settlement} {e : UpgradeEvent Backup} (h : e.request.Reports settlement) :
    e.restores = false ∧ e.retires = false ∧ e.restoreFailed = false := by
  obtain ⟨k, answer⟩ := e
  cases k <;> first | exact ⟨rfl, rfl, rfl⟩ | cases h

/-- The calls of a rolled back attempt: nothing is restored or retired before, the failure is reported after, and the
backup may be retired at the end if the restore returned. -/
theorem law_with_restore {before rest closing : List (UpgradeEvent Backup)} {backup : Backup}
    {answer : Except Thrown Unit} {settlement : Settlement} {failure : Thrown} (hbefore : ∀ e ∈ before, Calm e)
    (hrest : ∀ e ∈ rest, e.request.Reports settlement)
    (hclosing : closing = [] ∨ ∃ owned primary retired, closing = [⟨.retireBackup owned primary, retired⟩] ∧ answer = .ok ())
    (hknown : KnownUnpublished (before ++ ⟨.restore backup, answer⟩ :: (rest ++ closing))) :
    LifecycleLaw (before ++ ⟨.restore backup, answer⟩ :: (rest ++ closing)) (.error failure) := by
  have hlast : ∀ e ∈ closing, e.restores = false ∧ e.restoreFailed = false ∧ e.publishesFailure = false ∧
      answer = .ok () := by
    rcases hclosing with rfl | ⟨owned, primary, retired, rfl, hok⟩
    · exact nofun
    · simpa [restores, restoreFailed, publishesFailure] using hok
  have hafter : ∀ e ∈ rest ++ closing, e.restores = false ∧ e.restoreFailed = false :=
    List.forall_mem_append.mpr ⟨fun e he => ⟨(reports_calls (hrest e he)).1, (reports_calls (hrest e he)).2.2⟩,
      fun e he => ⟨(hlast e he).1, (hlast e he).2.1⟩⟩
  have hcount : (before ++ ⟨.restore backup, answer⟩ :: (rest ++ closing)).countP restores = 1 := by
    rw [List.countP_append, List.countP_cons,
      List.countP_eq_zero.mpr fun e he => by simp [(hbefore e he).1],
      List.countP_eq_zero.mpr fun e he => by simp [(hafter e he).1]]
    rfl
  have hretired : ∀ e ∈ before ++ ⟨.restore backup, answer⟩ :: (rest ++ closing), e.retires → e ∈ closing := by
    intro e he hretires
    rcases List.mem_append.mp he with hmem | hmem
    · simp [(hbefore e hmem).2.2] at hretires
    rcases List.mem_cons.mp hmem with rfl | hmem
    · cases hretires
    rcases List.mem_append.mp hmem with hmem | hmem
    · simp [(reports_calls (hrest e hmem)).2.1] at hretires
    · exact hmem
  exact {
    keepsCommit := fun h => absurd hknown h
    restoresOnce := fun _ _ => hcount
    restoresFirst := by
      refine List.pairwise_append.mpr ⟨?_, List.pairwise_cons.mpr ⟨?_, ?_⟩, ?_⟩
      · exact List.pairwise_of_forall_mem_list fun e he _ _ h => by simp [(hbefore e he).2.1, (hbefore e he).2.2] at h
      · exact fun e he h => by rcases h with h | h <;> cases h
      · exact List.pairwise_of_forall_mem_list fun _ _ e he _ => by simp [(hafter e he).1]
      · exact fun e he _ _ h => by simp [(hbefore e he).2.1, (hbefore e he).2.2] at h
    reportsRestored := fun _ _ _ _ => hcount
    retiresOnce := by
      rw [List.countP_append, List.countP_cons, List.countP_append,
        List.countP_eq_zero.mpr fun e he => by simp [(hbefore e he).2.2],
        List.countP_eq_zero.mpr fun e he => by simp [(reports_calls (hrest e he)).2.1]]
      rcases hclosing with rfl | ⟨owned, primary, retired, rfl, -⟩
      · simp [retires]
      · simp [retires]
    retiresRestored := by
      intro e he hretires
      obtain ⟨-, -, -, rfl⟩ := hlast e (hretired e he hretires)
      refine ⟨?_, fun _ _ => ⟨⟨.restore backup, .ok ()⟩, by simp, rfl⟩, fun h => absurd hknown h⟩
      intro r hr
      rcases List.mem_append.mp hr with hmem | hmem
      · exact calm_not_failed (hbefore r hmem)
      rcases List.mem_cons.mp hmem with rfl | hmem
      · exact nofun
      · simp [(hafter r hmem).2]
    returnsApplied := nofun }

/-! ## The publication in a run -/

theorem prepares_quiet {e : UpgradeEvent Backup} (h : e.request.Prepares) : e.concernsPublication = false := by
  obtain ⟨k, answer⟩ := e
  cases k <;> first | rfl | cases h

theorem reports_quiet {settlement : Settlement} {e : UpgradeEvent Backup} (h : e.request.Reports settlement) :
    e.concernsPublication = false := by
  obtain ⟨k, answer⟩ := e
  cases k <;> first | rfl | cases h

theorem recovery_quiet {s s' : LifecycleState} (h : Recovery s events s') :
    ∀ e ∈ events, e.concernsPublication = false := by
  cases h with
  | committed | unknown => exact nofun
  | restored b _ _ hrest | failed b _ _ _ hrest =>
      exact List.forall_mem_cons.mpr ⟨rfl, fun e he => reports_quiet (hrest e he)⟩

theorem closing_quiet {backup : Backup} {retain : Bool} (h : Closing backup retain events) :
    ∀ e ∈ events, e.concernsPublication = false := by
  cases h with
  | retained => exact nofun
  | retired => simp [concernsPublication]

/-- What concerns the publication is found between what prepares it and what follows. -/
theorem mem_publication (publication : List (UpgradeEvent Backup)) {before after : List (UpgradeEvent Backup)}
    (hbefore : ∀ e ∈ before, e.concernsPublication = false) (hafter : ∀ e ∈ after, e.concernsPublication = false)
    {e : UpgradeEvent Backup} (he : e.concernsPublication = true) :
    e ∈ before ++ (publication ++ after) ↔ e ∈ publication := by
  rw [List.mem_append, List.mem_append]
  constructor
  · rintro (h | h | h)
    · simp [hbefore e h] at he
    · exact h
    · simp [hafter e h] at he
  · exact fun h => .inr (.inl h)

theorem knownUnpublished_congr {other : List (UpgradeEvent Backup)}
    (h : ∀ e : UpgradeEvent Backup, e.concernsPublication = true → (e ∈ events ↔ e ∈ other)) :
    KnownUnpublished events ↔ KnownUnpublished other := by
  refine forall_congr' fun expected => forall_congr' fun answer => ?_
  rw [h _ rfl]
  refine forall_congr' fun _ => exists_congr fun failure => ?_
  rw [h _ rfl, h _ rfl]

/-- No call that tells what a publication did throws. -/
def Classified (events : List (UpgradeEvent Backup)) : Prop := ∀ e ∈ events, ¬ e.classificationFailed

theorem classificationFailed_concerns {e : UpgradeEvent Backup} (h : e.classificationFailed) :
    e.concernsPublication = true := by
  obtain ⟨k, answer⟩ := e
  cases k <;> first | rfl | cases h

theorem classified_congr {other : List (UpgradeEvent Backup)}
    (h : ∀ e : UpgradeEvent Backup, e.concernsPublication = true → (e ∈ events ↔ e ∈ other)) :
    Classified events ↔ Classified other := by
  constructor
  · exact fun hc e he hf => hc e ((h e (classificationFailed_concerns hf)).mpr he) hf
  · exact fun hc e he hf => hc e ((h e (classificationFailed_concerns hf)).mp he) hf

theorem known_publication (publication : List (UpgradeEvent Backup)) {before after : List (UpgradeEvent Backup)}
    (hbefore : Prepared before) (hafter : ∀ e ∈ after, e.concernsPublication = false) :
    KnownUnpublished (before ++ (publication ++ after)) ↔ KnownUnpublished publication :=
  knownUnpublished_congr fun _ he =>
    mem_publication publication (fun e he => prepares_quiet (hbefore.prepares e he)) hafter he

theorem classified_publication (publication : List (UpgradeEvent Backup)) {before after : List (UpgradeEvent Backup)}
    (hbefore : Prepared before) (hafter : ∀ e ∈ after, e.concernsPublication = false) :
    Classified (before ++ (publication ++ after)) ↔ Classified publication :=
  classified_congr fun _ he =>
    mem_publication publication (fun e he => prepares_quiet (hbefore.prepares e he)) hafter he

/-! ## The runs -/

section Runs

variable {prepared publication closing : List (UpgradeEvent Backup)} {backup : Backup} {retain : Bool}

theorem closing_calls (h : Closing backup retain closing) :
    closing.countP retires ≤ 1 ∧ ∀ e ∈ closing, retain = false ∧ ¬ e.restores ∧ ¬ e.publishesFailure ∧
      ¬ e.publicationFailed := by
  cases h with
  | retained => exact ⟨Nat.zero_le _, nofun⟩
  | retired => simp [retires, restores, publishesFailure, publicationFailed]

theorem closing_cases (h : Closing backup retain closing) :
    closing = [] ∨ retain = false ∧ ∃ primary answer, closing = [⟨.retireBackup backup primary, answer⟩] := by
  cases h with
  | retained => exact .inl rfl
  | retired primary answer => exact .inr ⟨rfl, primary, answer, rfl⟩

theorem publicationFailed_concerns {e : UpgradeEvent Backup} (h : e.publicationFailed) :
    e.concernsPublication = true := by
  obtain ⟨k, answer⟩ := e
  cases k <;> first | rfl | cases h

/-- A run that rolls nothing back because the terminal was or may have been published. -/
theorem law_kept (hprepared : Prepared prepared) (hcalm : ∀ e ∈ publication, Calm e)
    (hmay : ¬ KnownUnpublished publication) (hclosing : Closing backup retain closing)
    (hretain : retain = false → ∀ e ∈ publication, ¬ e.publicationFailed)
    (hreturns : ∀ r, outcome = .ok r → ∃ expected, r.upgradeExecutionTerminal.settlement = .applied ∧
      ⟨.publish expected, .ok r.upgradeExecutionTerminal⟩ ∈ publication ∧
        ⟨.recordGeneratedArtifacts r.lock, .ok ()⟩ ∈ publication) :
    LifecycleLaw (prepared ++ (publication ++ closing)) outcome := by
  have hmem {e : UpgradeEvent Backup} (he : e.concernsPublication = true) :=
    mem_publication publication (fun e he => prepares_quiet (hprepared.prepares e he))
      (closing_quiet hclosing) he
  obtain ⟨hcount, hclosed⟩ := closing_calls hclosing
  have hpreparedCalm : ∀ e ∈ prepared, Calm e := fun e he => calm_of_prepares (hprepared.prepares e he)
  refine law_without_restore ?_ ?_ ?_ ?_ ?_ ?_
  · refine List.forall_mem_append.mpr ⟨fun e he => by simp [(hpreparedCalm e he).1], ?_⟩
    exact List.forall_mem_append.mpr ⟨fun e he => by simp [(hcalm e he).1], fun e he => (hclosed e he).2.1⟩
  · refine List.forall_mem_append.mpr ⟨fun e he => by simp [(hpreparedCalm e he).2.1], ?_⟩
    exact List.forall_mem_append.mpr ⟨fun e he => by simp [(hcalm e he).2.1], fun e he => (hclosed e he).2.2.1⟩
  · exact fun h => absurd ((knownUnpublished_congr fun e he => hmem he).mp h) hmay
  · rw [List.countP_append, List.countP_append,
      List.countP_eq_zero.mpr fun e he => by simp [(hpreparedCalm e he).2.2],
      List.countP_eq_zero.mpr fun e he => by simp [(hcalm e he).2.2], Nat.zero_add, Nat.zero_add]
    exact hcount
  · intro e he hretires p hp hfailed
    have hclose : e ∈ closing := by
      rcases List.mem_append.mp he with h | h
      · simp [(hpreparedCalm e h).2.2] at hretires
      rcases List.mem_append.mp h with h | h
      · simp [(hcalm e h).2.2] at hretires
      · exact h
    exact hretain (hclosed e hclose).1 p ((hmem (publicationFailed_concerns hfailed)).mp hp) hfailed
  · intro r hr
    obtain ⟨expected, happlied, hpublished, hrecorded⟩ := hreturns r hr
    exact ⟨expected, happlied, List.mem_append_right _ (List.mem_append_left _ hpublished),
      List.mem_append_right _ (List.mem_append_left _ hrecorded)⟩

/-- A run that restores the workspace because nothing was published. -/
theorem law_rolledBack {s s' : LifecycleState} {recovery : List (UpgradeEvent Backup)} {failure : Thrown}
    (hprepared : Prepared prepared) (hcalm : ∀ e ∈ publication, Calm e) (hknown : KnownUnpublished publication)
    (hcommitted : s.appliedTerminalCommitted = false) (hunknown : s.appliedTerminalCommitUnknown = false)
    (hrecovery : Recovery s recovery s') (hclosing : Closing backup s'.retainBackupForRecovery closing) :
    LifecycleLaw (prepared ++ (publication ++ (recovery ++ closing))) (.error failure) := by
  have hknown := (knownUnpublished_congr fun e he =>
    mem_publication publication
      (fun e he => prepares_quiet (hprepared.prepares e he))
      (List.forall_mem_append.mpr ⟨recovery_quiet hrecovery, closing_quiet hclosing⟩) he).mpr hknown
  have hbefore : ∀ e ∈ prepared ++ publication, Calm e :=
    List.forall_mem_append.mpr ⟨fun e he => calm_of_prepares (hprepared.prepares e he), hcalm⟩
  rw [← List.append_assoc] at hknown ⊢
  cases hrecovery with
  | committed h => simp [hcommitted] at h
  | unknown h => simp [hunknown] at h
  | restored b _ _ hrest =>
      refine law_with_restore hbefore hrest ?_ hknown
      rcases closing_cases hclosing with h | ⟨-, primary, retired, h⟩
      · exact .inl h
      · exact .inr ⟨backup, primary, retired, h, rfl⟩
  | failed b _ _ _ hrest hretain =>
      refine law_with_restore hbefore hrest ?_ hknown
      rcases closing_cases hclosing with h | ⟨h, -⟩
      · exact .inl h
      · simp [hretain] at h

/-- A classification that throws is followed by a restore, although the terminal may have been published. -/
theorem not_law_unclassified {s s' : LifecycleState} {recovery : List (UpgradeEvent Backup)}
    {expected : UpgradeExecutionTerminal} {failure : Thrown} (hpublished : ⟨.publish expected, .error failure⟩ ∈ publication)
    (hmay : ¬ KnownUnpublished (prepared ++ (publication ++ (recovery ++ closing))))
    (hcommitted : s.appliedTerminalCommitted = false) (hunknown : s.appliedTerminalCommitUnknown = false)
    (hrecovery : Recovery s recovery s') :
    ¬ LifecycleLaw (prepared ++ (publication ++ (recovery ++ closing))) outcome := by
  intro hlaw
  obtain ⟨r, hr, hrestores⟩ : ∃ r ∈ recovery, r.restores := by
    cases hrecovery with
    | committed h => simp [hcommitted] at h
    | unknown h => simp [hunknown] at h
    | restored | failed => exact ⟨_, .head _, rfl⟩
  have hpairs := (List.pairwise_append.mp (hlaw.keepsCommit hmay).1).2.1
  exact (List.pairwise_append.mp hpairs).2.2 _ hpublished r (List.mem_append_left _ hr) rfl hrestores

end Runs

theorem recovery_of_committed {s s' : LifecycleState} (hs : s.appliedTerminalCommitted = true)
    (h : Recovery s events s') :
    events = [] ∧ (s.retainBackupForRecovery = true → s'.retainBackupForRecovery = true) := by
  cases h with
  | committed _ hretain => exact ⟨rfl, fun h => hretain.trans h⟩
  | unknown _ hretain => exact ⟨rfl, fun _ => hretain⟩
  | restored _ h | failed _ _ h => simp [hs] at h

theorem recovery_of_unknown {s s' : LifecycleState} (hcommitted : s.appliedTerminalCommitted = false)
    (hs : s.appliedTerminalCommitUnknown = true) (h : Recovery s events s') :
    events = [] ∧ s'.retainBackupForRecovery = true := by
  cases h with
  | committed h => simp [hcommitted] at h
  | unknown _ hretain => exact ⟨rfl, hretain⟩
  | restored _ _ h | failed _ _ _ h => simp [hs] at h

theorem records_calls {e : UpgradeEvent Backup} (h : ∃ lock, e.request = .recordGeneratedArtifacts lock) :
    Calm e ∧ ¬ e.publicationFailed ∧ ¬ e.classificationFailed := by
  obtain ⟨k, answer⟩ := e
  obtain ⟨lock, rfl⟩ := h
  exact ⟨⟨rfl, rfl, rfl⟩, nofun, nofun⟩

theorem not_known_of_settled {expected terminal : UpgradeExecutionTerminal}
    (h : ⟨.publish expected, .ok terminal⟩ ∈ events) : ¬ KnownUnpublished events := by
  intro hknown
  obtain ⟨failure, hanswer, -⟩ := hknown expected (.ok terminal) h
  cases hanswer

/-- What a publication that did not commit tells: it is known to be absent exactly when the failure came before any
effect. -/
theorem publication_notCommitted {expected : UpgradeExecutionTerminal} {unknown : Bool} {failure : Thrown}
    (h : Publication expected events (.ok (.notCommitted unknown failure))) :
    (∀ e ∈ events, Calm e) ∧ Classified events ∧ (KnownUnpublished events ↔ unknown = false) := by
  cases h with
  | unknown => simp [Calm, Classified, restores, publishesFailure, retires, classificationFailed, KnownUnpublished]
  | classified _ before =>
      simp [Calm, Classified, restores, publishesFailure, retires, classificationFailed, KnownUnpublished]

theorem publication_unclassified {expected : UpgradeExecutionTerminal} {thrown : Thrown}
    (h : Publication expected events (.error thrown)) :
    (∃ failure, ⟨.publish expected, .error failure⟩ ∈ events) ∧ ¬ Classified events ∧ ¬ KnownUnpublished events := by
  cases h with
  | unresolved | unclassified => simp [Classified, classificationFailed, KnownUnpublished]

/-! ## The law -/

/-- A run keeps the law exactly when it is classified. -/
theorem lifecycleRun_law (h : LifecycleRun input events outcome) : LifecycleLaw events outcome ↔ Classified events := by
  cases h with
  | snapshotFailed failure =>
      refine iff_of_true (law_without_restore ?_ ?_ ?_ ?_ ?_ nofun) ?_ <;>
        simp [restores, publishesFailure, begins, retires, Classified, classificationFailed]
  | locatorFailed backup answer thrown failure =>
      refine iff_of_true (law_without_restore ?_ ?_ ?_ ?_ ?_ nofun) ?_ <;>
        simp [restores, publishesFailure, begins, retires, Classified, classificationFailed, publicationFailed]
  | applied result s hprepared hattempt backup hclosing outcome houtcome =>
      rw [List.append_assoc]
      cases hattempt with
      | recorded expected lock terminal happlied =>
          refine iff_of_true (law_kept hprepared ?_ (not_known_of_settled (.head _)) hclosing ?_ ?_)
            ((classified_publication _ hprepared (closing_quiet hclosing)).mpr ?_)
          · simp [Calm, restores, publishesFailure, retires]
          · simp [publicationFailed]
          · intro r hr
            cases houtcome r hr
            exact ⟨expected, happlied, .head _, .tail _ (.head _)⟩
          · simp [Classified, classificationFailed]
  | @recovered prepared attempt recovery closing failure s s' hprepared hattempt hrecovery backup hclosing e =>
      have hafter : ∀ e ∈ recovery ++ closing, e.concernsPublication = false :=
        List.forall_mem_append.mpr ⟨recovery_quiet hrecovery, closing_quiet hclosing⟩
      rw [List.append_assoc, List.append_assoc, classified_publication attempt hprepared hafter]
      cases hattempt with
      | stopped failure =>
          have hempty : KnownUnpublished ([] : List (UpgradeEvent Backup)) := nofun
          exact iff_of_true (law_rolledBack hprepared nofun hempty rfl rfl hrecovery hclosing) nofun
      | settled expected terminal rest failure hrest =>
          obtain ⟨rfl, -⟩ := recovery_of_committed rfl hrecovery
          have hcalls : ∀ e ∈ rest, Calm e ∧ ¬ e.publicationFailed ∧ ¬ e.classificationFailed :=
            fun e he => records_calls (hrest e he)
          refine iff_of_true (law_kept hprepared ?_ (not_known_of_settled (.head _)) hclosing ?_ nofun) ?_
          · exact List.forall_mem_cons.mpr ⟨⟨rfl, rfl, rfl⟩, fun e he => (hcalls e he).1⟩
          · exact fun _ => List.forall_mem_cons.mpr ⟨nofun, fun e he => (hcalls e he).2.1⟩
          · exact List.forall_mem_cons.mpr ⟨nofun, fun e he => (hcalls e he).2.2⟩
      | uncertain expected publicationFailure failure s hs hretain =>
          obtain ⟨rfl, hretained⟩ := recovery_of_committed hs hrecovery
          refine iff_of_true (law_kept hprepared ?_ ?_ hclosing ?_ nofun) ?_
          · simp [Calm, restores, publishesFailure, retires]
          · simp [KnownUnpublished]
          · simp [hretained hretain]
          · simp [Classified, classificationFailed]
      | @notCommitted expected _ unknown failure hpublication =>
          obtain ⟨hcalm, hclassified, hknown⟩ := publication_notCommitted hpublication
          refine iff_of_true ?_ hclassified
          cases unknown with
          | true =>
              obtain ⟨rfl, hretained⟩ := recovery_of_unknown rfl rfl hrecovery
              exact law_kept hprepared hcalm (by simp [hknown]) hclosing (by simp [hretained]) nofun
          | false => exact law_rolledBack hprepared hcalm (hknown.mpr rfl) rfl rfl hrecovery hclosing
      | unclassified expected hpublication =>
          obtain ⟨⟨failure, hpublished⟩, hunclassified, hmay⟩ := publication_unclassified hpublication
          refine iff_of_false (not_law_unclassified hpublished ?_ rfl rfl hrecovery) hunclassified
          rwa [known_publication attempt hprepared hafter]

/-- For every behaviour of the injected operations, the lifecycle keeps its law exactly when neither
`resolvePublication` nor `isBeforeEffectFailure` throws while it classifies a failed publication. -/
theorem executeUpgradeApplyLifecycle_lawful {s' : LifecycleState}
    (h : Ends (executeUpgradeApplyLifecycle artifacts input) .initial events outcome s') :
    LifecycleLaw events outcome ↔ Classified events :=
  lifecycleRun_law (ends_executeUpgradeApplyLifecycle h)

/-! ### Two runs -/

/-- Everything succeeds, or the publication is interrupted and the readback that should resolve it throws too. -/
def sampleAnswer (interrupted : Bool) : (k : UpgradeCall Unit) → Except Thrown k.Answer
  | .snapshot | .clearExecutionTerminal | .clearDiagnostics | .publishPlan _ | .recordGeneratedArtifacts _
  | .restore _ | .publishDiagnostics .. | .retireBackup .. => .ok ()
  | .recoverySnapshot _ => .ok ⟨[], [], [], [], [], []⟩
  | .apply _ => .ok ⟨[], .null⟩
  | .readPersistedPlan => .ok ⟨[], [], [], [], .null⟩
  | .readWorkspacePlan => .ok ⟨[], .null⟩
  | .publish terminal => if interrupted then .error (.error (Text.ofString "write interrupted")) else .ok terminal
  | .resolvePublication _ => .error (.error (Text.ofString "readback failed"))
  | .isBeforeEffectFailure _ => .ok false
  | .publishExecutionTerminal terminal => .ok terminal

def sampleArtifacts : UpgradeArtifacts := ⟨fun _ => .ok [], fun _ => .ok [], fun _ => .ok [], fun _ => .ok ()⟩

def sampleInput : UpgradeApplyInput := ⟨⟨[], .null⟩, none, ⟨[], [], [], [], .null⟩, ⟨1, [], [], []⟩⟩

def sampleLifecycle : Lifecycle Unit UpgradeAppliedWorkspaceResult :=
  executeUpgradeApplyLifecycle sampleArtifacts sampleInput

/-- The calls of the lifecycle under these answers, with its outcome and last state. -/
def sampleRun (interrupted : Bool) :
    List (UpgradeEvent Unit) × Except Thrown UpgradeAppliedWorkspaceResult × LifecycleState :=
  Calls.respond (sampleAnswer interrupted) (sampleLifecycle .initial)

theorem ends_sampleRun (interrupted : Bool) :
    Ends sampleLifecycle .initial (sampleRun interrupted).1 (sampleRun interrupted).2.1 (sampleRun interrupted).2.2 :=
  Calls.runs_respond (sampleAnswer interrupted) (sampleLifecycle .initial)

theorem executeUpgradeApplyLifecycle_lawful_applied : LifecycleLaw (sampleRun false).1 (sampleRun false).2.1 := by
  have hclassified : (sampleRun false).1.any classificationFailed = false := rfl
  exact (executeUpgradeApplyLifecycle_lawful (ends_sampleRun false)).mpr
    fun e he => List.any_eq_false.mp hclassified e he

/-- The interrupted publication may have taken effect, and the workspace is restored all the same. -/
theorem executeUpgradeApplyLifecycle_unresolved :
    ¬ ∀ (events : List (UpgradeEvent Unit)) (outcome) (s' : LifecycleState),
      Ends sampleLifecycle .initial events outcome s' → LifecycleLaw events outcome := by
  intro hlaw
  have hclassified : Classified (sampleRun true).1 :=
    (lifecycleRun_law (ends_executeUpgradeApplyLifecycle (ends_sampleRun true))).mp (hlaw _ _ _ (ends_sampleRun true))
  have hfailed : (sampleRun true).1.any classificationFailed = true := rfl
  obtain ⟨e, he, h⟩ := List.any_eq_true.mp hfailed
  exact hclassified e he h

end SecPlatform.Upgrade

/-!
## JSON migration entries are idempotent

An interrupted upgrade applies its entries again to the documents it has already changed.
-/

namespace SecPlatform.Upgrade

open SecPlatform.Contracts (Value CodedFailure)

variable {config result again : Value} {path : List Text}

/-! ### One walk to one target -/

/-- An entry that settles its target at the end of a walk gives the same document again. -/
theorem updateJsonArrayTarget_again {enter : Option Value → Except CodedFailure (Option Members)}
    {change : Members → Text → Except CodedFailure Members} {label : Text} (henter : Enters enter)
    (hchange : Settles change) (h : updateJsonArrayTarget enter change config path label = .ok result) :
    updateJsonArrayTarget enter change result path label = .ok result := by
  unfold updateJsonArrayTarget at h ⊢
  obtain ⟨hpath, h⟩ := check_bind_eq_ok.mp h
  obtain ⟨hsafe, h⟩ := check_bind_eq_ok.mp h
  obtain ⟨root, -, h⟩ := bind_eq_ok.mp h
  obtain ⟨root', hupdate, h⟩ := bind_eq_ok.mp h
  obtain rfl := Except.ok.inj h
  exact check_bind_eq_ok.mpr ⟨hpath, check_bind_eq_ok.mpr ⟨hsafe, bind_eq_ok.mpr ⟨root', rfl,
    bind_eq_ok.mpr ⟨root', updateAt_again henter hchange hupdate, rfl⟩⟩⟩⟩

theorem applyJsonObjectMerge_again {value : JsonObject} (h : applyJsonObjectMerge config path value.val = .ok result) :
    applyJsonObjectMerge result path value.val = .ok result := by
  unfold applyJsonObjectMerge at h ⊢
  obtain ⟨hpath, h⟩ := check_bind_eq_ok.mp h
  obtain ⟨hsafe, h⟩ := check_bind_eq_ok.mp h
  obtain ⟨hvalue, h⟩ := check_bind_eq_ok.mp h
  obtain ⟨root, -, h⟩ := bind_eq_ok.mp h
  obtain ⟨root', hupdate, h⟩ := bind_eq_ok.mp h
  obtain rfl := Except.ok.inj h
  have hsettles : Settles (mergeTarget value.val) := settles_mergeTarget value.property hvalue
  have hagain := updateAt_again (fun _ => rfl) hsettles hupdate
  exact check_bind_eq_ok.mpr ⟨hpath, check_bind_eq_ok.mpr ⟨hsafe, check_bind_eq_ok.mpr ⟨hvalue,
    bind_eq_ok.mpr ⟨root', rfl, bind_eq_ok.mpr ⟨root', hagain, rfl⟩⟩⟩⟩⟩

/-! ### A list of updates -/

/-- What a list of updates decides it decides again, and the rest it has left once already. -/
theorem applyConfigUpdates_again {updates : List ConfigUpdate} (h : applyConfigUpdates config updates = .ok result) :
    ∃ again, applyConfigUpdates result updates = .ok again ∧ SameDocument again result := by
  unfold applyConfigUpdates at h
  obtain ⟨root, hroot, h⟩ := bind_eq_ok.mp h
  obtain ⟨next, hupdates, h⟩ := bind_eq_ok.mp h
  obtain rfl := Except.ok.inj h
  obtain ⟨hadmissible, hcontent⟩ := foldlM_applyConfigUpdate hupdates
  obtain ⟨again, hagain⟩ := foldlM_applyConfigUpdate_succeeds hadmissible next
  refine ⟨.obj again, bind_eq_ok.mpr ⟨next, rfl, bind_eq_ok.mpr ⟨again, hagain, rfl⟩⟩, fun other => ?_⟩
  calc contentAt (.obj again) other
      = (decidedBy updates other).getD (contentAt (.obj next) other) := (foldlM_applyConfigUpdate hagain).2 other
    _ = (decidedBy updates other).getD ((decidedBy updates other).getD (contentAt (.obj root) other)) := by
        rw [hcontent]
    _ = (decidedBy updates other).getD (contentAt (.obj root) other) := by
        cases decidedBy updates other <;> rfl
    _ = contentAt (.obj next) other := (hcontent other).symm

/-! ### Entries -/

/-- An entry that has been applied applies again and gives an equal document. Only a rewrite can list the members of an
object in another order then. -/
theorem applyJsonMigration_idempotent {entry : JsonMigrationEntry} (h : applyJsonMigration entry config = .ok result) :
    ∃ again, applyJsonMigration entry result = .ok again ∧ SameDocument again result ∧
      ((∀ updates, entry ≠ .configRewrite updates) → again = result) := by
  cases entry with
  | configRewrite updates =>
      obtain ⟨again, hagain, hsame⟩ := applyConfigUpdates_again h
      exact ⟨again, hagain, hsame, fun hne => absurd rfl (hne updates)⟩
  | jsonArrayAppend path items =>
      exact ⟨result, updateJsonArrayTarget_again (fun _ => rfl) (settles_appendItems items) h, fun _ => rfl,
        fun _ => rfl⟩
  | jsonArrayRemove path items =>
      exact ⟨result, updateJsonArrayTarget_again (fun _ => rfl) (settles_removeItems items) h, fun _ => rfl,
        fun _ => rfl⟩
  | jsonObjectMerge path value => exact ⟨result, applyJsonObjectMerge_again h, fun _ => rfl, fun _ => rfl⟩

/-- A rewrite that replaces a setting by an object with one flag. -/
def replaceSetting : JsonMigrationEntry :=
  .configRewrite [⟨["settings"], .delete⟩, ⟨["settings", "enabled"], .set (.bool true)⟩]

theorem applyJsonMigration_idempotent_rewrite :
    applyJsonMigration replaceSetting (.obj [("settings", .null), ("items", .arr [])]) =
        .ok (.obj [("items", .arr []), ("settings", .obj [("enabled", .bool true)])]) ∧
      ∃ again, applyJsonMigration replaceSetting (.obj [("items", .arr []), ("settings", .obj [("enabled", .bool true)])]) =
          .ok again ∧ SameDocument again (.obj [("items", .arr []), ("settings", .obj [("enabled", .bool true)])]) := by
  have happly : applyJsonMigration replaceSetting (.obj [("settings", .null), ("items", .arr [])]) =
      .ok (.obj [("items", .arr []), ("settings", .obj [("enabled", .bool true)])]) := by decide
  obtain ⟨again, hagain, hsame, -⟩ := applyJsonMigration_idempotent happly
  exact ⟨happly, again, hagain, hsame⟩

end SecPlatform.Upgrade
