import Mathlib.Algebra.GroupWithZero.Nat
import Mathlib.Data.List.Lex
import Mathlib.Data.List.Sort
import Mathlib.Order.Fin.Basic

/-!
# Text as UTF-16 code units

Strings are lists of UTF-16 code units, so that length, indexing and order are those of the
language the model follows. The order on `Text` is the lexicographic order of the code units.
-/

namespace SecPlatform

/-- One UTF-16 code unit. -/
abbrev CodeUnit := Fin 65536

/-- A string: any sequence of code units, unpaired surrogates included. -/
abbrev Text := List CodeUnit

instance CodeUnit.instNeZero : NeZero 65536 := ⟨by decide⟩

instance CodeUnit.instLawfulBEq : LawfulBEq CodeUnit := inferInstance

instance Text.instLawfulBEq : LawfulBEq Text := inferInstance

/-- The UTF-16 encoding of one Unicode scalar value. -/
def utf16 (c : Char) : List CodeUnit :=
  if c.toNat < 0x10000 then [Fin.ofNat _ c.toNat]
  else [Fin.ofNat _ (0xD800 + (c.toNat - 0x10000) / 0x400), Fin.ofNat _ (0xDC00 + (c.toNat - 0x10000) % 0x400)]

/-- The code unit of an ASCII character. -/
def unit (c : Char) : CodeUnit := Fin.ofNat _ c.toNat

namespace Text

def ofString (s : String) : Text := s.toList.flatMap utf16

instance : Coe String Text := ⟨ofString⟩

/-- The pieces one after the other, as in a template literal. -/
def cat (pieces : List Text) : Text := pieces.flatten

/-- The decimal digits of a natural number. -/
def ofNat (n : Nat) : Text := (Nat.toDigits 10 n).map unit

/-- `String.prototype.split` with a separator of one code unit. -/
def splitAt (sep : CodeUnit) : Text → List Text
  | [] => [[]]
  | c :: cs =>
      if c = sep then [] :: splitAt sep cs
      else match splitAt sep cs with
        | [] => [[c]]
        | part :: parts => (c :: part) :: parts

/-- The parts joined by a separator. -/
def joinWith (sep : Text) : List Text → Text
  | [] => []
  | [part] => part
  | part :: parts => part ++ sep ++ joinWith sep parts

/-! ## Bytes -/

def isLeadSurrogate (c : CodeUnit) : Bool := 0xD800 ≤ c && c < 0xDC00

def isTrailSurrogate (c : CodeUnit) : Bool := 0xDC00 ≤ c && c < 0xE000

/-- The bytes of a code unit on its own; an unpaired surrogate is written as the replacement character. -/
def unitBytes (c : CodeUnit) : Nat := if c < 0x80 then 1 else if c < 0x800 then 2 else 3

/-- `Buffer.byteLength(text, 'utf8')`. -/
def utf8Length : Text → Nat
  | [] => 0
  | [c] => unitBytes c
  | c :: d :: rest =>
      if isLeadSurrogate c && isTrailSurrogate d then 4 + utf8Length rest else unitBytes c + utf8Length (d :: rest)

/-- Every code unit is an ASCII character. -/
def IsAscii (s : Text) : Prop := ∀ c ∈ s, c < 0x80

theorem utf8Length_of_isAscii {s : Text} (h : IsAscii s) : utf8Length s = s.length := by
  fun_induction utf8Length s with
  | case1 => rfl
  | case2 c => simp [unitBytes, h c (by simp)]
  | case3 c d rest hpair =>
      have hc := h c (by simp)
      simp only [isLeadSurrogate, Bool.and_eq_true, decide_eq_true_eq] at hpair
      exact absurd (lt_of_le_of_lt hpair.1.1 hc) (by decide)
  | case4 c d rest _ ih =>
      rw [ih fun e he => h e (by simp [he]), unitBytes, if_pos (h c (by simp))]
      simp only [List.length_cons]
      omega

theorem unitBytes_bounds (c : CodeUnit) : 0 < unitBytes c ∧ unitBytes c ≤ 3 := by
  unfold unitBytes
  split
  · decide
  · split <;> decide

theorem utf8Length_pos {s : Text} (h : s ≠ []) : 0 < utf8Length s := by
  fun_cases utf8Length s with
  | case1 => exact absurd rfl h
  | case2 c => exact (unitBytes_bounds c).1
  | case3 => omega
  | case4 c =>
      have hc := (unitBytes_bounds c).1
      omega

/-- Every text that is added takes bytes of its own. -/
theorem utf8Length_lt_append (s : Text) {t : Text} (h : t ≠ []) : utf8Length s < utf8Length (s ++ t) := by
  fun_induction utf8Length s with
  | case1 => exact utf8Length_pos h
  | case2 c =>
      obtain ⟨d, rest, rfl⟩ := List.exists_cons_of_ne_nil h
      have hpos := utf8Length_pos h
      have hc := (unitBytes_bounds c).2
      simp only [List.singleton_append, utf8Length]
      split <;> omega
  | case3 c d rest hpair ih => simpa [utf8Length, hpair] using ih
  | case4 c d rest hpair ih =>
      simp only [List.cons_append] at ih ⊢
      rw [utf8Length, if_neg hpair]
      omega

theorem IsAscii.append {s t : Text} (hs : IsAscii s) (ht : IsAscii t) : IsAscii (s ++ t) := by
  intro c hc
  rcases List.mem_append.mp hc with hc | hc
  · exact hs c hc
  · exact ht c hc

/-! ## White space -/

/-- The white space and line terminators that `String.prototype.trim` removes. -/
def isTrimSpace (c : CodeUnit) : Bool :=
  c ∈ ([0x9, 0xA, 0xB, 0xC, 0xD, 0x20, 0xA0, 0x1680, 0x2028, 0x2029, 0x202F, 0x205F, 0x3000, 0xFEFF] :
    List CodeUnit) || (0x2000 ≤ c && c ≤ 0x200A)

def trimStart (s : Text) : Text := s.dropWhile isTrimSpace

def trim (s : Text) : Text := (trimStart (trimStart s).reverse).reverse

/-! ## Splitting and joining -/

theorem splitAt_ne_nil (sep : CodeUnit) (s : Text) : splitAt sep s ≠ [] := by
  cases s with
  | nil => simp [splitAt]
  | cons c cs =>
      unfold splitAt
      split
      · simp
      · split <;> simp

/-- The parts of a text joined again. -/
theorem joinWith_splitAt (sep : CodeUnit) (s : Text) : joinWith [sep] (splitAt sep s) = s := by
  induction s with
  | nil => rfl
  | cons c cs ih =>
      obtain ⟨part, parts, hparts⟩ := List.exists_cons_of_ne_nil (splitAt_ne_nil sep cs)
      rw [hparts] at ih
      by_cases hc : c = sep
      · rw [splitAt, if_pos hc, hparts, joinWith, ih, hc]
        · rfl
        · simp
      · rw [splitAt, if_neg hc, hparts, ← ih]
        cases parts <;> simp [joinWith]

theorem splitAt_of_notMem {sep : CodeUnit} {s : Text} (h : sep ∉ s) : splitAt sep s = [s] := by
  induction s with
  | nil => rfl
  | cons c cs ih =>
      simp only [List.mem_cons, not_or] at h
      simp [splitAt, ih h.2, Ne.symm h.1]

theorem splitAt_append {sep : CodeUnit} {s : Text} (h : sep ∉ s) (t : Text) :
    splitAt sep (s ++ sep :: t) = s :: splitAt sep t := by
  induction s with
  | nil => simp [splitAt]
  | cons c cs ih =>
      simp only [List.mem_cons, not_or] at h
      simp [splitAt, ih h.2, Ne.symm h.1]

theorem splitAt_append_cons (sep : CodeUnit) (s t : Text) :
    splitAt sep (s ++ sep :: t) = splitAt sep s ++ splitAt sep t := by
  induction s with
  | nil => simp [splitAt]
  | cons c cs ih =>
      by_cases hc : c = sep
      · simp [splitAt, hc, ih]
      · obtain ⟨part, parts, hparts⟩ := List.exists_cons_of_ne_nil (splitAt_ne_nil sep cs)
        simp [splitAt, hc, ih, hparts]

/-- One more terminated line behind terminated lines. -/
theorem splitAt_dropLast_append {sep : CodeUnit} {s line : Text} (hs : s.getLast? = some sep) (hline : sep ∉ line) :
    splitAt sep (s ++ (line ++ [sep])).dropLast = splitAt sep s.dropLast ++ [line] := by
  obtain ⟨init, rfl⟩ : ∃ init, s = init ++ [sep] := ⟨s.dropLast, (List.dropLast_append_getLast? sep hs).symm⟩
  rw [← List.append_assoc, List.dropLast_concat, List.append_assoc, List.singleton_append, splitAt_append_cons,
    splitAt_of_notMem hline, List.dropLast_concat]

theorem notMem_of_mem_splitAt {sep : CodeUnit} {s p : Text} (h : p ∈ splitAt sep s) : sep ∉ p := by
  induction s generalizing p with
  | nil => simp only [splitAt, List.mem_singleton] at h; simp [h]
  | cons c cs ih =>
      unfold splitAt at h
      split at h
      · rcases List.mem_cons.mp h with rfl | h
        · simp
        · exact ih h
      · rename_i hc
        split at h
        · rename_i hnil; exact absurd hnil (splitAt_ne_nil sep cs)
        · rename_i part parts hsplit
          rcases List.mem_cons.mp h with rfl | h
          · simp only [List.mem_cons, not_or]
            exact ⟨fun e => hc e.symm, ih (by rw [hsplit]; simp)⟩
          · exact ih (by rw [hsplit]; simp [h])

end Text

end SecPlatform
