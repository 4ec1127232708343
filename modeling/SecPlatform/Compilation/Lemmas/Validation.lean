import Mathlib.Data.List.Nodup
import SecPlatform.Compilation.Journal

/-!
# Valid journals

A typed journal is accepted exactly when it is valid, and it is read back as it was written.
-/

namespace SecPlatform.Compilation

open Contracts

/-! ## Members -/

/-- Members show fields: every key is the key of a field, and under it stands the value of the field. -/
structure Shows (fields : List (Text × Option Value)) (members : List (Text × Value)) : Prop where
  keys : ∀ m ∈ members, m.1 ∈ fields.map Prod.fst
  values : ∀ f ∈ fields, Json.get? f.1 members = f.2

theorem get?_present_of_notMem {fields : List (Text × Option Value)} {key : Text} (h : key ∉ fields.map Prod.fst) :
    Json.get? key (present fields) = none := by
  induction fields with
  | nil => rfl
  | cons f fields ih =>
      obtain ⟨k, value⟩ := f
      rw [List.map_cons, List.mem_cons, not_or] at h
      cases value with
      | none => exact ih h.2
      | some v =>
          change Json.get? key ((k, v) :: present fields) = none
          rw [Json.get?, if_neg (Ne.symm h.1)]
          exact ih h.2

theorem shows_present {fields : List (Text × Option Value)} (h : (fields.map Prod.fst).Nodup) :
    Shows fields (present fields) := by
  refine ⟨fun m hm => ?_, ?_⟩
  · obtain ⟨⟨k, value⟩, hf, hv⟩ := List.mem_filterMap.mp hm
    obtain ⟨v, -, rfl⟩ := Option.map_eq_some_iff.mp hv
    exact List.mem_map_of_mem hf
  · induction fields with
    | nil => nofun
    | cons first fields ih =>
        obtain ⟨k, value⟩ := first
        rw [List.map_cons, List.nodup_cons] at h
        intro f hmem
        rcases List.mem_cons.mp hmem with rfl | hf
        · cases value with
          | none =>
              change Json.get? k (present fields) = none
              exact get?_present_of_notMem h.1
          | some v => exact if_pos rfl
        · have hne : k ≠ f.1 := by
            intro hk
            exact h.1 (List.mem_map.mpr ⟨f, hf, hk.symm⟩)
          cases value with
          | none => exact ih h.2 f hf
          | some v =>
              change Json.get? f.1 ((k, v) :: present fields) = f.2
              rw [Json.get?, if_neg hne]
              exact ih h.2 f hf

/-- Members show one value for each field. -/
theorem Shows.unique {fields fields' : List (Text × Option Value)} {members : List (Text × Value)}
    (h : Shows fields members) (h' : Shows fields' members) (hkeys : fields.map Prod.fst = fields'.map Prod.fst) :
    fields = fields' := by
  have hlength : fields.length = fields'.length := by simpa using congrArg List.length hkeys
  refine List.ext_getElem hlength fun i hi hi' => ?_
  have hkey : fields[i].1 = fields'[i].1 := by
    have hget : (fields.map Prod.fst)[i]? = (fields'.map Prod.fst)[i]? := by rw [hkeys]
    simpa [hi, hi'] using hget
  refine Prod.ext hkey ?_
  rw [← h.values _ (List.getElem_mem hi), ← h'.values _ (List.getElem_mem hi'), hkey]

/-! ## Checks -/

theorem orThrow_eq_ok {α : Type} {message : Text} {o : Option α} {a : α} : orThrow message o = .ok a ↔ o = some a := by
  cases o <;> simp [orThrow]

theorem membersOf?_eq_some {value : Value} {members : List (Text × Value)} :
    membersOf? value = some members ↔ value = .obj members := by
  cases value <;> simp [membersOf?]

theorem itemsOf?_eq_some {value : Value} {items : List Value} : itemsOf? value = some items ↔ value = .arr items := by
  cases value <;> simp [itemsOf?]

theorem boundedText?_eq_some {value : Value} {t : Text} :
    boundedText? value = some t ↔ value = .str t ∧ isBounded 4096 t := by
  cases value with
  | str s =>
      simp only [boundedText?, Option.ite_none_right_eq_some, Option.some.injEq, Json.str.injEq]
      constructor
      · rintro ⟨h, rfl⟩
        exact ⟨rfl, h⟩
      · rintro ⟨rfl, h⟩
        exact ⟨h, rfl⟩
  | null | bool | num | arr | obj => simp [boundedText?]

theorem exactKeys_eq_ok {value : List (Text × Value)} {allowed : List Text} {label : Text} {u : Unit} :
    exactKeys value allowed label = .ok u ↔ ∀ m ∈ value, m.1 ∈ allowed := by
  rw [exactKeys, forM_eq_ok]
  exact forall₂_congr fun m _ => require_eq_ok

/-- A set of names that has every name once. -/
theorem named?_eq_some {α : Type} {names : List α} {toText : α → Text} (hinj : Function.Injective toText)
    (hall : ∀ a, a ∈ names) {value : Value} {a : α} : named? names toText value = some a ↔ value = .str (toText a) := by
  cases value with
  | str t =>
      simp only [named?, Json.str.injEq]
      constructor
      · intro h
        simpa [eq_comm] using List.find?_some h
      · rintro rfl
        cases hfound : names.find? fun name => decide (toText name = toText a) with
        | none => exact absurd (List.find?_eq_none.mp hfound a (hall a)) (by simp)
        | some b =>
            have hb : toText b = toText a := by simpa using List.find?_some hfound
            rw [hinj hb]
  | null | bool | num | arr | obj => simp [named?]

theorem passId_toText_injective : Function.Injective PassId.toText := by
  intro a b h
  cases a <;> cases b <;> first | rfl | exact absurd h (by decide)

theorem stageId_toText_injective : Function.Injective PipelineStageId.toText := by
  intro a b h
  cases a <;> cases b <;> first | rfl | exact absurd h (by decide)

theorem source_toText_injective : Function.Injective PipelineSource.toText := by
  intro a b h
  cases a <;> cases b <;> first | rfl | exact absurd h (by decide)

theorem transactionStatus_toText_injective : Function.Injective PipelineTransactionStatus.toText := by
  intro a b h
  cases a <;> cases b <;> first | rfl | exact absurd h (by decide)

theorem passStatus_toText_injective : Function.Injective PipelinePassStatus.toText := by
  intro a b h
  cases a <;> cases b <;> first | rfl | exact absurd h (by decide)

theorem named?_pass {value : Value} {a : PassId} :
    named? PIPELINE_PASSES PassId.toText value = some a ↔ value = .str a.toText :=
  named?_eq_some passId_toText_injective fun a => by cases a <;> decide

theorem named?_stage {value : Value} {a : PipelineStageId} :
    named? PIPELINE_STAGES PipelineStageId.toText value = some a ↔ value = .str a.toText :=
  named?_eq_some stageId_toText_injective fun a => by cases a <;> decide

theorem named?_source {value : Value} {a : PipelineSource} :
    named? PIPELINE_SOURCES PipelineSource.toText value = some a ↔ value = .str a.toText :=
  named?_eq_some source_toText_injective fun a => by cases a <;> decide

theorem named?_transactionStatus {value : Value} {a : PipelineTransactionStatus} :
    named? PIPELINE_TRANSACTION_STATUSES PipelineTransactionStatus.toText value = some a ↔ value = .str a.toText :=
  named?_eq_some transactionStatus_toText_injective fun a => by cases a <;> decide

theorem named?_passStatus {value : Value} {a : PipelinePassStatus} :
    named? PIPELINE_PASS_STATUSES PipelinePassStatus.toText value = some a ↔ value = .str a.toText :=
  named?_eq_some passStatus_toText_injective fun a => by cases a <;> decide

theorem bind_eq_some_str {o : Option Value} {α : Type} {f : Value → Option α} {a : α} {v : Value}
    (h : ∀ value, f value = some a ↔ value = v) : o.bind f = some a ↔ o = some v := by
  cases o <;> simp [h]

/-! ## Lifetimes -/

structure Lifetime.Valid (l : Lifetime) (running : Prop) : Prop where
  startedAt : isCanonicalTimestamp l.startedAt
  completedAt : ∀ t ∈ l.completedAt, isCanonicalTimestamp t
  errorCode : ∀ t ∈ l.errorCode, isBounded 4096 t
  message : ∀ t ∈ l.message, isBounded 16384 t
  whileRunning : running → l.completedAt = none ∧ l.errorCode = none ∧ l.message = none
  whenDone : ¬running → l.completedAt ≠ none

/-- The fields of a lifetime, as members show them. -/
structure ShowsLifetime (members : List (Text × Value)) (l : Lifetime) : Prop where
  startedAt : Json.get? "startedAt" members = some (.str l.startedAt)
  completedAt : Json.get? "completedAt" members = l.completedAt.map .str
  errorCode : Json.get? "errorCode" members = l.errorCode.map .str
  message : Json.get? "message" members = l.message.map .str

theorem canonicalTimestamp_eq_ok {value : Option Value} {label t : Text} :
    canonicalTimestamp value label = .ok t ↔ value = some (.str t) ∧ isCanonicalTimestamp t := by
  unfold canonicalTimestamp
  split
  next s =>
    constructor
    · intro h
      split at h
      next hs => cases h; exact ⟨rfl, hs⟩
      next => cases h
    · rintro ⟨h, ht⟩
      cases h
      exact if_pos ht
  next hnot => exact ⟨nofun, fun h => absurd h.1 (hnot t)⟩

theorem optionalTimestamp_eq_ok {value : Option Value} {label : Text} {o : Option Text} :
    optionalTimestamp value label = .ok o ↔ value = o.map .str ∧ ∀ t ∈ o, isCanonicalTimestamp t := by
  cases value with
  | none => cases o <;> simp [optionalTimestamp]
  | some value => cases o <;> simp [optionalTimestamp, map_eq_ok, canonicalTimestamp_eq_ok]

theorem optionalBoundedText_eq_ok {value : Option Value} {label : Text} {maximum : Nat} {o : Option Text} :
    optionalBoundedText value label maximum = .ok o ↔ value = o.map .str ∧ ∀ t ∈ o, isBounded maximum t := by
  unfold optionalBoundedText
  split
  next => cases o <;> simp
  next s =>
    split
    next hs =>
      cases o with
      | none => simp
      | some t =>
          simp only [Except.ok.injEq, Option.some.injEq, Option.map_some, Json.str.injEq, Option.mem_some]
          constructor
          · rintro rfl
            exact ⟨rfl, fun t ht => ht ▸ hs⟩
          · exact fun h => h.1
    next hs =>
      refine ⟨nofun, fun ⟨h, ht⟩ => ?_⟩
      cases o with
      | none => cases h
      | some t => cases h; exact absurd (ht _ rfl) hs
  next v hnot =>
    refine ⟨nofun, fun ⟨h, _⟩ => ?_⟩
    cases o with
    | none => cases h
    | some t => exact absurd (Option.some.inj h) (hnot t)

theorem readLifetime_eq_ok {members : List (Text × Value)} {label sep : Text} {running : Bool} {l : Lifetime} :
    readLifetime members label sep running = .ok l ↔ ShowsLifetime members l ∧ l.Valid running := by
  unfold readLifetime
  simp only [bind_eq_ok, require_eq_ok, canonicalTimestamp_eq_ok, optionalBoundedText_eq_ok, optionalTimestamp_eq_ok,
    pure_eq_ok, Except.ok.injEq, exists_const]
  constructor
  · rintro ⟨startedAt, ⟨hs, hs'⟩, completedAt, ⟨hc, hc'⟩, errorCode, ⟨he, he'⟩, message, ⟨hm, hm'⟩, hrunning, hdone, rfl⟩
    refine ⟨⟨hs, hc, he, hm⟩, hs', hc', he', hm', fun hr => ?_, fun hr hnone => hdone ⟨hr, hnone⟩⟩
    simpa [not_or, hr] using hrunning
  · rintro ⟨hshow, hvalid⟩
    refine ⟨_, ⟨hshow.startedAt, hvalid.startedAt⟩, _, ⟨hshow.completedAt, hvalid.completedAt⟩, _,
      ⟨hshow.errorCode, hvalid.errorCode⟩, _, ⟨hshow.message, hvalid.message⟩, ?_, ?_, rfl⟩
    · rintro ⟨hr, hsome⟩
      obtain ⟨h1, h2, h3⟩ := hvalid.whileRunning hr
      simp [h1, h2, h3] at hsome
    · rintro ⟨hr, hnone⟩
      exact hvalid.whenDone hr hnone

/-! ## Passes -/

def PipelinePassRecord.Valid (r : PipelinePassRecord) : Prop := r.toLifetime.Valid (r.status = .running)

theorem PipelinePassRecord.fields_injective {r r' : PipelinePassRecord} (h : r.fields = r'.fields) : r = r' := by
  obtain ⟨⟨_, _, _, _⟩, _, _⟩ := r
  obtain ⟨⟨_, _, _, _⟩, _, _⟩ := r'
  simp only [fields, List.cons.injEq, Prod.mk.injEq, Option.some.injEq, Json.str.injEq, true_and, and_true] at h
  obtain ⟨hpass, hstatus, rfl, hcompleted, herror, hmessage⟩ := h
  have hstr : Function.Injective (Json.str : Text → Value) := fun _ _ h => by simpa using h
  obtain rfl := passId_toText_injective hpass
  obtain rfl := passStatus_toText_injective hstatus
  obtain rfl := Option.map_injective hstr hcompleted
  obtain rfl := Option.map_injective hstr herror
  obtain rfl := Option.map_injective hstr hmessage
  rfl

theorem validatePassRecord_eq_ok {transactionId : Text} {value : Value} {r : PipelinePassRecord} :
    validatePassRecord transactionId value = .ok r ↔
      ∃ members, value = .obj members ∧ Shows r.fields members ∧ r.Valid := by
  unfold validatePassRecord
  simp only [bind_eq_ok, orThrow_eq_ok, membersOf?_eq_some, exactKeys_eq_ok, readLifetime_eq_ok, pure_eq_ok,
    Except.ok.injEq, bind_eq_some_str fun _ => named?_pass, bind_eq_some_str fun _ => named?_passStatus, exists_const]
  constructor
  · rintro ⟨members, rfl, hkeys, passId, hpass, status, hstatus, lifetime, ⟨hshow, hvalid⟩, rfl⟩
    refine ⟨members, rfl, ⟨hkeys, ?_⟩, by simpa [PipelinePassRecord.Valid] using hvalid⟩
    simp only [PipelinePassRecord.fields, List.forall_mem_cons, List.not_mem_nil, false_imp_iff, implies_true, and_true]
    exact ⟨hpass, hstatus, hshow.startedAt, hshow.completedAt, hshow.errorCode, hshow.message⟩
  · rintro ⟨members, rfl, hshow, hvalid⟩
    have hvalues := hshow.values
    simp only [PipelinePassRecord.fields, List.forall_mem_cons, List.not_mem_nil, false_imp_iff, implies_true,
      and_true] at hvalues
    obtain ⟨hpass, hstatus, hstarted, hcompleted, herror, hmessage⟩ := hvalues
    exact ⟨members, rfl, hshow.keys, r.passId, hpass, r.status, hstatus, r.toLifetime,
      ⟨⟨hstarted, hcompleted, herror, hmessage⟩, by simpa [PipelinePassRecord.Valid] using hvalid⟩, rfl⟩

theorem PipelinePassRecord.shows (r : PipelinePassRecord) : Shows r.fields (present r.fields) :=
  shows_present (show PASS_RECORD_KEYS.Nodup by decide)

/-- A pass is accepted exactly when it is valid, and it is read back. -/
theorem validatePassRecord_toValue {transactionId : Text} {r r' : PipelinePassRecord} :
    validatePassRecord transactionId r.toValue = .ok r' ↔ r' = r ∧ r.Valid := by
  rw [validatePassRecord_eq_ok]
  constructor
  · rintro ⟨members, hvalue, hshow, hvalid⟩
    obtain rfl := Json.obj.inj hvalue
    obtain rfl := PipelinePassRecord.fields_injective (hshow.unique r.shows rfl)
    exact ⟨rfl, hvalid⟩
  · rintro ⟨rfl, hvalid⟩
    exact ⟨_, rfl, r'.shows, hvalid⟩

/-- A list of records is accepted exactly when each is, and it is read back. -/
theorem mapM_toValue {α : Type} {validate : Value → Except Text α} {toValue : α → Value} {Valid : α → Prop}
    (h : ∀ a a', validate (toValue a) = .ok a' ↔ a' = a ∧ Valid a) {as as' : List α} :
    (as.map toValue).mapM validate = .ok as' ↔ as' = as ∧ ∀ a ∈ as, Valid a := by
  rw [mapM_eq_ok, List.forall₂_map_left_iff]
  induction as generalizing as' with
  | nil => simp
  | cons a as ih =>
      rw [List.forall₂_cons_left_iff, List.forall_mem_cons]
      constructor
      · rintro ⟨a', as', ha, has, rfl⟩
        obtain ⟨rfl, hvalid⟩ := (h a a').mp ha
        obtain ⟨rfl, hvalids⟩ := ih.mp has
        exact ⟨rfl, hvalid, hvalids⟩
      · rintro ⟨rfl, hvalid, hvalids⟩
        exact ⟨a, as, (h a a).mpr ⟨rfl, hvalid⟩, ih.mpr ⟨rfl, hvalids⟩, rfl⟩

/-! ## Transactions -/

structure PipelineTransactionRecord.Valid (r : PipelineTransactionRecord) : Prop where
  lifetime : r.toLifetime.Valid (r.status = .running)
  id : isBounded 4096 r.id
  requestedStages : r.requestedStages.Nodup
  passCount : r.passRecords.length ≤ 128
  passRecords : ∀ pass ∈ r.passRecords, pass.Valid

/-- The fields of a transaction with the values of its passes. -/
def PipelineTransactionRecord.fieldsWith (r : PipelineTransactionRecord) (passes : List Value) :
    List (Text × Option Value) := [
  ("id", some (.str r.id)),
  ("source", some (.str r.source.toText)),
  ("requestedStages", some (.arr (r.requestedStages.map fun stage => .str stage.toText))),
  ("status", some (.str r.status.toText)),
  ("startedAt", some (.str r.startedAt)),
  ("completedAt", r.completedAt.map .str),
  ("passRecords", some (.arr passes)),
  ("errorCode", r.errorCode.map .str),
  ("message", r.message.map .str)]

theorem PipelineTransactionRecord.shows (r : PipelineTransactionRecord) :
    Shows (r.fieldsWith (r.passRecords.map PipelinePassRecord.toValue)) (present r.fields) :=
  shows_present (show TRANSACTION_KEYS.Nodup by decide)

theorem mapM_stages {stages : List Value} {requestedStages : List PipelineStageId} :
    stages.mapM (named? PIPELINE_STAGES PipelineStageId.toText) = some requestedStages ↔
      stages = requestedStages.map fun stage => .str stage.toText := by
  induction stages generalizing requestedStages with
  | nil => cases requestedStages <;> simp
  | cons stage stages ih =>
      rw [List.mapM_cons]
      simp only [Option.bind_eq_bind, Option.bind_eq_some_iff, named?_stage, ih, Option.pure_def, Option.some.injEq]
      constructor
      · rintro ⟨s, rfl, ss, rfl, rfl⟩
        rfl
      · intro h
        cases requestedStages with
        | nil => cases h
        | cons s ss =>
            obtain ⟨rfl, rfl⟩ := List.cons.inj h
            exact ⟨s, rfl, ss, rfl, rfl⟩

theorem validateTransaction_eq_ok {value : Value} {r : PipelineTransactionRecord} :
    validateTransaction value = .ok r ↔ ∃ members passes, value = .obj members ∧ Shows (r.fieldsWith passes) members ∧
      passes.mapM (validatePassRecord r.id) = .ok r.passRecords ∧ passes.length ≤ 128 ∧
      r.toLifetime.Valid (r.status = .running) ∧ isBounded 4096 r.id ∧ r.requestedStages.Nodup := by
  unfold validateTransaction transactionHead
  simp only [bind_eq_ok, orThrow_eq_ok, membersOf?_eq_some, exactKeys_eq_ok, readLifetime_eq_ok, pure_eq_ok,
    Except.ok.injEq, require_eq_ok, exists_const, Option.bind_eq_bind, Option.bind_eq_some_iff, Option.pure_def,
    Option.some.injEq, boundedText?_eq_some, named?_source, named?_transactionStatus, itemsOf?_eq_some, mapM_stages]
  constructor
  · rintro ⟨members, rfl, hkeys, ⟨id, source, status, stages, passes⟩, ⟨_, ⟨_, hid, rfl, hbounded⟩, _,
      ⟨_, hsource, rfl⟩, _, ⟨_, hstatus, rfl⟩, _, ⟨_, hstages, rfl⟩, _, ⟨_, hpasses, rfl⟩, heq⟩, requestedStages,
      hrequested, hnodup, lifetime, ⟨hshow, hvalid⟩, hcount, passRecords, hrecords, rfl⟩
    cases heq
    obtain rfl := hrequested
    refine ⟨members, passes, rfl, ⟨hkeys, ?_⟩, hrecords, hcount, by simpa using hvalid, hbounded, hnodup⟩
    simp only [PipelineTransactionRecord.fieldsWith, List.forall_mem_cons, List.not_mem_nil, false_imp_iff,
      implies_true, and_true]
    exact ⟨hid, hsource, hstages, hstatus, hshow.startedAt, hshow.completedAt, hpasses, hshow.errorCode, hshow.message⟩
  · rintro ⟨members, passes, rfl, hshow, hrecords, hcount, hvalid, hbounded, hnodup⟩
    have hvalues := hshow.values
    simp only [PipelineTransactionRecord.fieldsWith, List.forall_mem_cons, List.not_mem_nil, false_imp_iff,
      implies_true, and_true] at hvalues
    obtain ⟨hid, hsource, hstages, hstatus, hstarted, hcompleted, hpasses, herror, hmessage⟩ := hvalues
    exact ⟨members, rfl, hshow.keys, ⟨r.id, r.source, r.status, _, passes⟩, ⟨_, ⟨_, hid, rfl, hbounded⟩, _,
      ⟨_, hsource, rfl⟩, _, ⟨_, hstatus, rfl⟩, _, ⟨_, hstages, rfl⟩, _, ⟨_, hpasses, rfl⟩, rfl⟩, r.requestedStages,
      rfl, hnodup, r.toLifetime, ⟨⟨hstarted, hcompleted, herror, hmessage⟩, by simpa using hvalid⟩, hcount,
      r.passRecords, hrecords, rfl⟩

theorem PipelineTransactionRecord.passes_of_fieldsWith {r r' : PipelineTransactionRecord} {passes passes' : List Value}
    (h : r.fieldsWith passes = r'.fieldsWith passes') : passes = passes' := by
  simp only [fieldsWith, List.cons.injEq, Prod.mk.injEq, Option.some.injEq, Json.arr.injEq, true_and] at h
  exact h.2.2.2.2.2.2.1

theorem PipelineTransactionRecord.eq_of_fieldsWith {r r' : PipelineTransactionRecord} {passes passes' : List Value}
    (h : r.fieldsWith passes = r'.fieldsWith passes') (hpasses : r.passRecords = r'.passRecords) : r = r' := by
  obtain ⟨⟨_, _, _, _⟩, _, _, _, _, _⟩ := r
  obtain ⟨⟨_, _, _, _⟩, _, _, _, _, _⟩ := r'
  simp only [fieldsWith, List.cons.injEq, Prod.mk.injEq, Option.some.injEq, Json.str.injEq, Json.arr.injEq, true_and,
    and_true] at h
  obtain ⟨rfl, hsource, hstages, hstatus, rfl, hcompleted, -, herror, hmessage⟩ := h
  obtain rfl := hpasses
  have hstr : Function.Injective (Json.str : Text → Value) := fun _ _ h => by simpa using h
  obtain rfl := source_toText_injective hsource
  obtain rfl := transactionStatus_toText_injective hstatus
  obtain rfl := List.map_injective_iff.mpr (hstr.comp stageId_toText_injective) hstages
  obtain rfl := Option.map_injective hstr hcompleted
  obtain rfl := Option.map_injective hstr herror
  obtain rfl := Option.map_injective hstr hmessage
  rfl

/-- A transaction is accepted exactly when it is valid, and it is read back. -/
theorem validateTransaction_toValue {r r' : PipelineTransactionRecord} :
    validateTransaction r.toValue = .ok r' ↔ r' = r ∧ r.Valid := by
  rw [validateTransaction_eq_ok]
  constructor
  · rintro ⟨members, passes, hvalue, hshow, hrecords, hcount, hvalid, hid, hstages⟩
    obtain rfl := Json.obj.inj hvalue
    have hfields := hshow.unique r.shows rfl
    have hpasses := PipelineTransactionRecord.passes_of_fieldsWith hfields
    rw [hpasses, mapM_toValue fun _ _ => validatePassRecord_toValue] at hrecords
    obtain rfl := PipelineTransactionRecord.eq_of_fieldsWith hfields hrecords.1
    rw [hpasses, List.length_map] at hcount
    exact ⟨rfl, hvalid, hid, hstages, hcount, hrecords.2⟩
  · rintro ⟨rfl, hvalid⟩
    exact ⟨_, _, rfl, r'.shows, (mapM_toValue fun _ _ => validatePassRecord_toValue).mpr ⟨rfl, hvalid.passRecords⟩,
      by simpa using hvalid.passCount, hvalid.lifetime, hvalid.id, hvalid.requestedStages⟩

/-- What is accepted is valid. -/
theorem validateTransaction_valid {value : Value} {r : PipelineTransactionRecord} (h : validateTransaction value = .ok r) :
    r.Valid := by
  obtain ⟨members, passes, rfl, -, hrecords, hcount, hvalid, hid, hstages⟩ := validateTransaction_eq_ok.mp h
  refine ⟨hvalid, hid, hstages, (mapM_eq_ok.mp hrecords).length_eq ▸ hcount, fun pass hpass => ?_⟩
  obtain ⟨passValue, -, hpass⟩ := exists_of_mem_mapM hrecords hpass
  obtain ⟨-, -, -, hpass⟩ := validatePassRecord_eq_ok.mp hpass
  exact hpass

/-! ## Retirements -/

theorem PipelineAdaptRetirementRecord.shows (r : PipelineAdaptRetirementRecord) : Shows r.fields (present r.fields) :=
  shows_present (show RETIREMENT_KEYS.Nodup by decide)

theorem canonicalDigest_eq_ok {value : Option Value} {label : Text} {d : Digest} :
    canonicalDigest value label = .ok d ↔ value = some (.str d.val) := by
  unfold canonicalDigest
  split
  next t =>
    constructor
    · intro h
      split at h
      next ht => cases h; rfl
      next => cases h
    · intro h
      cases h
      exact dif_pos d.2
  next hnot => exact ⟨nofun, fun h => absurd h (hnot _)⟩

/-- A retirement record is accepted exactly in its own form. -/
theorem validateRetirementRecord_eq_ok {value : Value} {r : PipelineAdaptRetirementRecord} :
    validateRetirementRecord value = .ok r ↔ ∃ members, value = .obj members ∧ Shows r.fields members := by
  unfold validateRetirementRecord
  simp only [bind_eq_ok, orThrow_eq_ok, membersOf?_eq_some, exactKeys_eq_ok, canonicalDigest_eq_ok, pure_eq_ok,
    Except.ok.injEq, require_eq_ok, exists_const]
  constructor
  · rintro ⟨members, rfl, hkeys, digest, hdigest, ⟨hschema, hstage, hfile⟩, rfl⟩
    refine ⟨members, rfl, hkeys, ?_⟩
    simp only [PipelineAdaptRetirementRecord.fields, List.forall_mem_cons, List.not_mem_nil, false_imp_iff,
      implies_true, and_true]
    exact ⟨hschema, hstage, hdigest, hfile⟩
  · rintro ⟨members, rfl, hshow⟩
    have hvalues := hshow.values
    simp only [PipelineAdaptRetirementRecord.fields, List.forall_mem_cons, List.not_mem_nil, false_imp_iff,
      implies_true, and_true] at hvalues
    obtain ⟨hschema, hstage, hdigest, hfile⟩ := hvalues
    exact ⟨members, rfl, hshow.keys, _, hdigest, ⟨hschema, hstage, hfile⟩, rfl⟩

theorem validateRetirementRecord_toValue {r r' : PipelineAdaptRetirementRecord} :
    validateRetirementRecord r.toValue = .ok r' ↔ r' = r ∧ True := by
  rw [validateRetirementRecord_eq_ok, and_true]
  constructor
  · rintro ⟨members, hvalue, hshow⟩
    obtain rfl := Json.obj.inj hvalue
    have hfields := hshow.unique r.shows rfl
    simp only [PipelineAdaptRetirementRecord.fields, List.cons.injEq, Prod.mk.injEq, Option.some.injEq,
      Json.str.injEq, true_and, and_true] at hfields
    obtain ⟨d'⟩ := r'
    obtain ⟨d⟩ := r
    obtain rfl := Subtype.ext hfields.1
    rfl
  · rintro rfl
    exact ⟨_, rfl, r'.shows⟩

/-! ## Journals -/

/-- The transactions that are running, by id. -/
def runningIds (transactions : List PipelineTransactionRecord) : List Text :=
  (transactions.filter fun transaction => transaction.status = .running).map PipelineTransactionRecord.id

/-- What is valid of a journal before its oldest transactions are dropped. -/
structure PipelineJournal.Consistent (journal : PipelineJournal) : Prop where
  transactions : ∀ transaction ∈ journal.transactions, transaction.Valid
  ids : (journal.transactions.map PipelineTransactionRecord.id).Nodup
  active : runningIds journal.transactions = journal.activeTransactionId.toList
  lastCommitted :
    journal.lastCommittedTransactionId = (latestSucceeded journal.transactions).map PipelineTransactionRecord.id
  retirements : ∀ rs ∈ journal.retirements, rs.length ≤ MAX_RETAINED_TRANSACTIONS ∧
    (rs.map PipelineAdaptRetirementRecord.legacyJournalBytesDigest).Nodup

structure PipelineJournal.Valid (journal : PipelineJournal) : Prop extends journal.Consistent where
  count : journal.transactions.length ≤ MAX_RETAINED_TRANSACTIONS

theorem checkUniqueIds_eq_ok {journalPath : Text} {transactions : List PipelineTransactionRecord} {u : Unit} :
    checkUniqueIds journalPath transactions = .ok u ↔ (transactions.map PipelineTransactionRecord.id).Nodup := by
  refine (forUnique_eq_ok (P := fun _ => True) ?_).trans (by simp)
  exact fun _ _ => by simp

theorem optionalId_eq_ok {message : Text} {value : Option Value} {o : Option Text} :
    optionalId message value = .ok o ↔ value = o.map .str ∧ ∀ t ∈ o, isBounded 4096 t := by
  cases value with
  | none => cases o <;> simp [optionalId]
  | some value => cases o <;> simp [optionalId, orThrow_eq_ok, boundedText?_eq_some]

/-- The values of retirements that are read. -/
def ReadRetirements (values : Option (List Value)) (retirements : Option (List PipelineAdaptRetirementRecord)) : Prop :=
  Option.Rel (fun values rs => values.mapM validateRetirementRecord = .ok rs) values retirements

theorem eq_of_readRetirements {rs rs' : Option (List PipelineAdaptRetirementRecord)}
    (h : ReadRetirements (rs.map fun rs => rs.map PipelineAdaptRetirementRecord.toValue) rs') : rs' = rs := by
  cases rs with
  | none =>
      cases h
      rfl
  | some rs =>
      cases h with
      | some h => rw [((mapM_toValue fun _ _ => validateRetirementRecord_toValue).mp h).1]

theorem validateRetirements_eq_ok {journalPath : Text} {value : Option Value}
    {retirements : Option (List PipelineAdaptRetirementRecord)} :
    validateRetirements journalPath value = .ok retirements ↔ ∃ values, value = values.map .arr ∧
      ReadRetirements values retirements ∧ ∀ rs ∈ retirements, rs.length ≤ MAX_RETAINED_TRANSACTIONS ∧
        (rs.map PipelineAdaptRetirementRecord.legacyJournalBytesDigest).Nodup := by
  cases value with
  | none =>
      constructor
      · intro h
        obtain rfl := Except.ok.inj h
        exact ⟨none, rfl, .none, nofun⟩
      · rintro ⟨values, hvalues, hread, -⟩
        obtain rfl := Option.map_eq_none_iff.mp hvalues.symm
        cases hread
        rfl
  | some value =>
      unfold validateRetirements
      simp only [bind_eq_ok, orThrow_eq_ok, itemsOf?_eq_some, require_eq_ok, pure_eq_ok, Except.ok.injEq, exists_const]
      constructor
      · rintro ⟨items, rfl, hcount, rs, hrs, hnodup, rfl⟩
        refine ⟨some items, rfl, .some hrs, fun rs' hrs' => ?_⟩
        obtain rfl := Option.some.inj hrs'
        exact ⟨(mapM_eq_ok.mp hrs).length_eq ▸ hcount, hnodup⟩
      · rintro ⟨values, hvalues, hread, hvalid⟩
        cases hread with
        | none => cases hvalues
        | @some items rs hrs =>
            obtain rfl := Option.some.inj hvalues
            obtain ⟨hcount, hnodup⟩ := hvalid rs rfl
            exact ⟨items, rfl, (mapM_eq_ok.mp hrs).length_eq ▸ hcount, rs, hrs, hnodup, rfl⟩

/-- The fields of a journal with the values of its records. -/
def PipelineJournal.fieldsWith (journal : PipelineJournal) (items : List Value) (retirements : Option (List Value)) :
    List (Text × Option Value) := [
  ("formatVersion", some (.str PIPELINE_JOURNAL_FORMAT_VERSION)),
  ("activeTransactionId", journal.activeTransactionId.map .str),
  ("lastCommittedTransactionId", journal.lastCommittedTransactionId.map .str),
  ("transactions", some (.arr items)),
  ("retirements", retirements.map .arr)]

theorem PipelineJournal.shows (journal : PipelineJournal) :
    Shows (journal.fieldsWith (journal.transactions.map PipelineTransactionRecord.toValue)
      (journal.retirements.map fun rs => rs.map PipelineAdaptRetirementRecord.toValue)) (present journal.fields) := by
  have hfields : journal.fieldsWith (journal.transactions.map PipelineTransactionRecord.toValue)
      (journal.retirements.map fun rs => rs.map PipelineAdaptRetirementRecord.toValue) = journal.fields := by
    simp only [fieldsWith, fields, Option.map_map]
    rfl
  rw [hfields]
  exact shows_present (show JOURNAL_KEYS.Nodup by decide)

theorem validateJournal_eq_ok {journalPath : Text} {value : Value} {journal : PipelineJournal} :
    validateJournal journalPath value = .ok journal ↔ ∃ members items retirements, value = .obj members ∧
      Shows (journal.fieldsWith items retirements) members ∧
      items.mapM validateTransaction = .ok journal.transactions ∧ items.length ≤ MAX_RETAINED_TRANSACTIONS ∧
      (journal.transactions.map PipelineTransactionRecord.id).Nodup ∧
      runningIds journal.transactions = journal.activeTransactionId.toList ∧
      (∀ t ∈ journal.activeTransactionId, isBounded 4096 t) ∧
      journal.lastCommittedTransactionId = (latestSucceeded journal.transactions).map PipelineTransactionRecord.id ∧
      (∀ t ∈ journal.lastCommittedTransactionId, isBounded 4096 t) ∧
      ReadRetirements retirements journal.retirements ∧
      ∀ rs ∈ journal.retirements, rs.length ≤ MAX_RETAINED_TRANSACTIONS ∧
        (rs.map PipelineAdaptRetirementRecord.legacyJournalBytesDigest).Nodup := by
  unfold validateJournal
  simp only [bind_eq_ok, orThrow_eq_ok, membersOf?_eq_some, exactKeys_eq_ok, pure_eq_ok, Except.ok.injEq, require_eq_ok,
    exists_const, Option.bind_eq_some_iff, itemsOf?_eq_some, checkUniqueIds_eq_ok, optionalId_eq_ok,
    validateRetirements_eq_ok]
  constructor
  · rintro ⟨members, rfl, hkeys, hversion, items, ⟨_, hitems, rfl⟩, hcount, transactions, htransactions, hids, active,
      ⟨hactive, hbounded⟩, hrunning, last, ⟨hlast, hbounded'⟩, hlatest, retirements, ⟨values, hvalues, hread, hvalid⟩,
      rfl⟩
    refine ⟨members, items, values, rfl, ⟨hkeys, ?_⟩, htransactions, hcount, hids, hrunning, hbounded, hlatest,
      hbounded', hread, hvalid⟩
    simp only [PipelineJournal.fieldsWith, List.forall_mem_cons, List.not_mem_nil, false_imp_iff, implies_true,
      and_true]
    exact ⟨hversion, hactive, hlast, hitems, hvalues⟩
  · rintro ⟨members, items, values, rfl, hshow, htransactions, hcount, hids, hrunning, hbounded, hlatest, hbounded',
      hread, hvalid⟩
    have hshown := hshow.values
    simp only [PipelineJournal.fieldsWith, List.forall_mem_cons, List.not_mem_nil, false_imp_iff, implies_true,
      and_true] at hshown
    obtain ⟨hversion, hactive, hlast, hitems, hvalues⟩ := hshown
    exact ⟨members, rfl, hshow.keys, hversion, items, ⟨_, hitems, rfl⟩, hcount, _, htransactions, hids, _,
      ⟨hactive, hbounded⟩, hrunning, _, ⟨hlast, hbounded'⟩, hlatest, _, ⟨values, hvalues, hread, hvalid⟩, rfl⟩

/-- An accepted journal is valid. -/
theorem validateJournal_valid {journalPath : Text} {value : Value} {journal : PipelineJournal}
    (h : validateJournal journalPath value = .ok journal) : journal.Valid := by
  obtain ⟨members, items, values, -, -, htransactions, hcount, hids, hrunning, -, hlatest, -, -, hvalid⟩ :=
    (validateJournal_eq_ok).mp h
  refine ⟨⟨fun transaction htransaction => ?_, hids, hrunning, hlatest, hvalid⟩,
    (mapM_eq_ok.mp htransactions).length_eq ▸ hcount⟩
  obtain ⟨item, -, hitem⟩ := exists_of_mem_mapM htransactions htransaction
  exact validateTransaction_valid hitem

theorem mem_runningIds {transactions : List PipelineTransactionRecord} {id : Text} :
    id ∈ runningIds transactions ↔ ∃ transaction ∈ transactions, transaction.status = .running ∧ transaction.id = id := by
  simp [runningIds, and_assoc]

theorem latestSucceeded_mem {transactions : List PipelineTransactionRecord} {transaction : PipelineTransactionRecord}
    (h : latestSucceeded transactions = some transaction) :
    transaction ∈ transactions ∧ transaction.status = .succeeded :=
  ⟨List.mem_reverse.mp (List.mem_of_find?_eq_some h), by simpa using List.find?_some h⟩

/-- A typed journal is accepted exactly when it is valid, and it is read back. -/
theorem validateJournal_toValue {journalPath : Text} {journal journal' : PipelineJournal} :
    validateJournal journalPath journal.toValue = .ok journal' ↔ journal' = journal ∧ journal.Valid := by
  constructor
  · intro h
    have hvalid := validateJournal_valid h
    obtain ⟨members, items, values, hvalue, hshow, htransactions, -, -, -, -, -, -, hread, -⟩ :=
      (validateJournal_eq_ok).mp h
    obtain rfl := Json.obj.inj hvalue
    have hfields := hshow.unique journal.shows rfl
    simp only [PipelineJournal.fieldsWith, List.cons.injEq, Prod.mk.injEq, Option.some.injEq, Json.arr.injEq,
      true_and, and_true] at hfields
    obtain ⟨hactive, hlast, rfl, hretirements⟩ := hfields
    have hstr : Function.Injective (Json.str : Text → Value) := fun _ _ h => by simpa using h
    have harr : Function.Injective (Json.arr : List Value → Value) := fun _ _ h => by simpa using h
    obtain rfl := Option.map_injective harr hretirements
    obtain ⟨htransactions, -⟩ := (mapM_toValue fun _ _ => validateTransaction_toValue).mp htransactions
    have hretired := eq_of_readRetirements hread
    obtain ⟨active, last, transactions, retirements⟩ := journal
    obtain ⟨active', last', transactions', retirements'⟩ := journal'
    obtain rfl := Option.map_injective hstr hactive
    obtain rfl := Option.map_injective hstr hlast
    obtain rfl := htransactions
    obtain rfl := hretired
    exact ⟨rfl, hvalid⟩
  · rintro ⟨rfl, hvalid⟩
    refine (validateJournal_eq_ok).mpr ⟨_, _, _, rfl, journal'.shows,
      (mapM_toValue fun _ _ => validateTransaction_toValue).mpr ⟨rfl, hvalid.transactions⟩,
      by simpa using hvalid.count, hvalid.ids, hvalid.active, fun id hid => ?_, hvalid.lastCommitted, fun id hid => ?_,
      ?_, hvalid.retirements⟩
    · have hmem : id ∈ runningIds journal'.transactions := by rw [hvalid.active]; simpa using hid
      obtain ⟨transaction, htransaction, -, rfl⟩ := mem_runningIds.mp hmem
      exact (hvalid.transactions transaction htransaction).id
    · rw [hvalid.lastCommitted] at hid
      obtain ⟨transaction, htransaction, rfl⟩ := Option.map_eq_some_iff.mp hid
      exact (hvalid.transactions transaction (latestSucceeded_mem htransaction).1).id
    · cases journal'.retirements with
      | none => exact .none
      | some rs => exact .some ((mapM_toValue fun _ _ => validateRetirementRecord_toValue).mpr ⟨rfl, by simp⟩)

end SecPlatform.Compilation
