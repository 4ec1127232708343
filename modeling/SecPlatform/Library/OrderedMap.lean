import Mathlib.Data.List.Nodup
import Mathlib.Logic.Basic

/-!
# Maps that keep the order of insertion

A `Map` of the language: its keys are listed in the order of their first insertion; setting a present key
replaces the value in place.
-/

namespace SecPlatform

/-- A map with its entries in the order of their insertion. -/
structure OrderedMap (κ α : Type) where
  entries : List (κ × α)
  nodup : (entries.map Prod.fst).Nodup

namespace OrderedMap

variable {κ α : Type} [DecidableEq κ]

/-! ## Entries -/

def find (key : κ) : List (κ × α) → Option α
  | [] => none
  | (k, v) :: rest => if k = key then some v else find key rest

def put (key : κ) (value : α) : List (κ × α) → List (κ × α)
  | [] => [(key, value)]
  | (k, v) :: rest => if k = key then (k, value) :: rest else (k, v) :: put key value rest

theorem find_put (key other : κ) (value : α) (es : List (κ × α)) :
    find other (put key value es) = if key = other then some value else find other es := by
  induction es with
  | nil => rfl
  | cons e es ih =>
      obtain ⟨k, v⟩ := e
      by_cases hk : k = key
      · subst hk
        simp only [put, if_true, find]
        split <;> rfl
      · simp only [put, hk, if_false, find, ih]
        by_cases ho : k = other
        · subst ho
          simp [Ne.symm hk]
        · simp [ho]

theorem keys_put (key : κ) (value : α) (es : List (κ × α)) :
    (put key value es).map Prod.fst =
      if key ∈ es.map Prod.fst then es.map Prod.fst else es.map Prod.fst ++ [key] := by
  induction es with
  | nil => rfl
  | cons e es ih =>
      obtain ⟨k, v⟩ := e
      by_cases hk : k = key
      · simp [put, hk]
      · simp only [put, hk, if_false, List.map_cons, ih, List.mem_cons, Ne.symm hk, false_or]
        split <;> rfl

theorem find_isSome {key : κ} {es : List (κ × α)} : (find key es).isSome ↔ key ∈ es.map Prod.fst := by
  induction es with
  | nil => simp [find]
  | cons e es ih =>
      obtain ⟨k, v⟩ := e
      by_cases hk : k = key
      · simp [find, hk]
      · simpa [find, hk, Ne.symm hk] using ih

theorem find_eq_some {key : κ} {value : α} {es : List (κ × α)} (h : (es.map Prod.fst).Nodup) :
    find key es = some value ↔ (key, value) ∈ es := by
  induction es with
  | nil => simp [find]
  | cons e es ih =>
      obtain ⟨k, v⟩ := e
      obtain ⟨hnot, h⟩ := List.nodup_cons.mp h
      by_cases hk : k = key
      · subst hk
        simp only [find, if_true, Option.some.injEq, List.mem_cons, Prod.mk.injEq, true_and]
        exact ⟨fun hv => .inl hv.symm, fun hv => hv.elim Eq.symm fun hv => absurd (List.mem_map_of_mem hv) hnot⟩
      · simp [find, hk, ih h, Ne.symm hk]

/-! ## Operations -/

def empty : OrderedMap κ α := ⟨[], List.nodup_nil⟩

def get? (m : OrderedMap κ α) (key : κ) : Option α := find key m.entries

def has (m : OrderedMap κ α) (key : κ) : Bool := (m.get? key).isSome

def keys (m : OrderedMap κ α) : List κ := m.entries.map Prod.fst

def values (m : OrderedMap κ α) : List α := m.entries.map Prod.snd

def set (m : OrderedMap κ α) (key : κ) (value : α) : OrderedMap κ α where
  entries := put key value m.entries
  nodup := by
    rw [keys_put]
    split
    · exact m.nodup
    · rename_i hnot
      exact List.nodup_append.mpr ⟨m.nodup, List.nodup_singleton _, by
        rintro a ha b hb rfl
        exact hnot (List.mem_singleton.mp hb ▸ ha)⟩

/-- `new Map(entries)`. -/
def ofList (es : List (κ × α)) : OrderedMap κ α := es.foldl (fun m e => m.set e.1 e.2) empty

@[simp] theorem get?_empty (key : κ) : (empty : OrderedMap κ α).get? key = none := rfl

theorem get?_set (m : OrderedMap κ α) (key other : κ) (value : α) :
    (m.set key value).get? other = if key = other then some value else m.get? other :=
  find_put key other value m.entries

@[simp] theorem get?_set_self (m : OrderedMap κ α) (key : κ) (value : α) :
    (m.set key value).get? key = some value := by rw [get?_set, if_pos rfl]

theorem get?_set_of_ne (m : OrderedMap κ α) {key other : κ} (value : α) (h : key ≠ other) :
    (m.set key value).get? other = m.get? other := by rw [get?_set, if_neg h]

omit [DecidableEq κ] in
@[simp] theorem keys_empty : (empty : OrderedMap κ α).keys = [] := rfl

theorem keys_set (m : OrderedMap κ α) (key : κ) (value : α) :
    (m.set key value).keys = if key ∈ m.keys then m.keys else m.keys ++ [key] := keys_put key value m.entries

theorem has_iff {m : OrderedMap κ α} {key : κ} : m.has key ↔ key ∈ m.keys := find_isSome

theorem get?_eq_none {m : OrderedMap κ α} {key : κ} : m.get? key = none ↔ key ∉ m.keys := by
  rw [← has_iff, has, Bool.not_eq_true, Option.isSome_eq_false_iff, Option.isNone_iff_eq_none]

theorem get?_eq_some {m : OrderedMap κ α} {key : κ} {value : α} :
    m.get? key = some value ↔ (key, value) ∈ m.entries := find_eq_some m.nodup

theorem mem_keys_set {m : OrderedMap κ α} {key other : κ} {value : α} :
    other ∈ (m.set key value).keys ↔ other = key ∨ other ∈ m.keys := by
  rw [← has_iff, ← has_iff, has, has, get?_set]
  by_cases h : key = other
  · simp [h]
  · simp [h, Ne.symm h]

theorem mem_values {m : OrderedMap κ α} {value : α} : value ∈ m.values ↔ ∃ key, m.get? key = some value := by
  simp [values, get?_eq_some]

theorem mem_keys {m : OrderedMap κ α} {key : κ} : key ∈ m.keys ↔ ∃ value, m.get? key = some value := by
  rw [← has_iff, has, Option.isSome_iff_exists]

omit [DecidableEq κ] in
theorem nodup_keys (m : OrderedMap κ α) : m.keys.Nodup := m.nodup

omit [DecidableEq κ] in
theorem nodup_values_map {f : α → κ} (m : OrderedMap κ α) (h : ∀ entry ∈ m.entries, f entry.2 = entry.1) :
    (m.values.map f).Nodup := by
  have hkeys : m.values.map f = m.keys := by
    simp only [values, keys, List.map_map]
    exact List.map_congr_left h
  exact hkeys ▸ m.nodup_keys

/-- Setting the value that is there changes nothing. -/
theorem set_of_get? {m : OrderedMap κ α} {key : κ} {value : α} (h : m.get? key = some value) : m.set key value = m := by
  obtain ⟨entries, nodup⟩ := m
  have hput : put key value entries = entries := by
    change find key entries = some value at h
    clear nodup
    induction entries with
    | nil => cases h
    | cons entry entries ih =>
        obtain ⟨k, v⟩ := entry
        by_cases hk : k = key
        · simp_all [put, find]
        · simp_all [put, find]
  simp only [set, hput]

omit [DecidableEq κ] in
/-- A loop whose turns add keys adds those of all turns. -/
theorem mem_keys_foldl {β : Type} {f : OrderedMap κ α → β → OrderedMap κ α} {adds : β → κ → Prop}
    (step : ∀ m b key, key ∈ (f m b).keys ↔ adds b key ∨ key ∈ m.keys) (bs : List β) (m : OrderedMap κ α) (key : κ) :
    key ∈ (bs.foldl f m).keys ↔ key ∈ m.keys ∨ ∃ b ∈ bs, adds b key := by
  induction bs generalizing m with
  | nil => simp
  | cons b bs ih =>
      rw [List.foldl_cons, ih, step, List.exists_mem_cons_iff]
      tauto

/-- Entries set one after the other, without a repeated key. -/
theorem get?_foldl_set {es : List (κ × α)} (h : (es.map Prod.fst).Nodup) (m : OrderedMap κ α) (key : κ) :
    (es.foldl (fun m e => m.set e.1 e.2) m).get? key = (find key es).or (m.get? key) := by
  induction es generalizing m with
  | nil => rfl
  | cons e es ih =>
      obtain ⟨k, v⟩ := e
      obtain ⟨hk, h⟩ := List.nodup_cons.mp h
      rw [List.foldl_cons, ih h, get?_set]
      by_cases hkey : k = key
      · subst hkey
        have hnone : find k es = none := by
          rw [← Option.isNone_iff_eq_none, ← Option.isSome_eq_false_iff, ← Bool.not_eq_true, find_isSome]
          exact hk
        simp [find, hnone]
      · simp [find, hkey]

/-- A list without repeated keys is looked up in the map it makes. -/
theorem get?_ofList {es : List (κ × α)} (h : (es.map Prod.fst).Nodup) (key : κ) :
    (ofList es).get? key = find key es := by
  rw [ofList, get?_foldl_set h]
  simp

theorem find_map_snd {β : Type} (f : α → β) (key : κ) (es : List (κ × α)) :
    find key (es.map fun e => (e.1, f e.2)) = (find key es).map f := by
  induction es with
  | nil => rfl
  | cons e es ih =>
      by_cases h : e.1 = key
      · simp [find, h]
      · simp [find, h, ih]

/-! ## Maps to lists without repetition -/

section Lists

variable {β : Type} [DecidableEq β]

/-- `map.get(key) ?? []`. -/
def valuesAt (m : OrderedMap κ (List β)) (key : κ) : List β := (m.get? key).getD []

/-- The value is added under the key unless it is there. -/
def addTo (m : OrderedMap κ (List β)) (key : κ) (value : β) : OrderedMap κ (List β) :=
  let values := m.valuesAt key
  m.set key (if value ∈ values then values else values ++ [value])

omit [DecidableEq β] in
@[simp] theorem valuesAt_empty (key : κ) : (empty : OrderedMap κ (List β)).valuesAt key = [] := rfl

omit [DecidableEq β] in
theorem valuesAt_set (m : OrderedMap κ (List β)) (key other : κ) (values : List β) :
    (m.set key values).valuesAt other = if key = other then values else m.valuesAt other := by
  rw [valuesAt, get?_set]
  split <;> rfl

theorem mem_valuesAt_addTo {m : OrderedMap κ (List β)} {key other : κ} {value b : β} :
    b ∈ (m.addTo key value).valuesAt other ↔ b ∈ m.valuesAt other ∨ (other = key ∧ b = value) := by
  rw [addTo, valuesAt_set]
  by_cases h : key = other
  · subst h
    rw [if_pos rfl]
    split
    · rename_i hmem
      exact ⟨.inl, fun hb => hb.elim id fun e => e.2 ▸ hmem⟩
    · simp
  · simp [h, Ne.symm h]

/-- The entries added one after the other. -/
def addAllTo (m : OrderedMap κ (List β)) (entries : List (κ × β)) : OrderedMap κ (List β) :=
  entries.foldl (fun m entry => m.addTo entry.1 entry.2) m

theorem mem_valuesAt_addAllTo {m : OrderedMap κ (List β)} {entries : List (κ × β)} {key : κ} {b : β} :
    b ∈ (m.addAllTo entries).valuesAt key ↔ b ∈ m.valuesAt key ∨ (key, b) ∈ entries := by
  induction entries generalizing m with
  | nil => simp [addAllTo]
  | cons entry entries ih =>
      change b ∈ ((m.addTo entry.1 entry.2).addAllTo entries).valuesAt key ↔ _
      rw [ih, mem_valuesAt_addTo, List.mem_cons, Prod.ext_iff, or_assoc]

end Lists

end OrderedMap

end SecPlatform
