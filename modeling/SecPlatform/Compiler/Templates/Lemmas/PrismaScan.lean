import SecPlatform.Compiler.Templates.PrismaMembers

/-!
# Scanning a line of a schema

Where the scan of a line closes the block, it has gone through what stands before the brace, and nothing but white
space and a comment follows. Text that the scan goes through can be put on a line of its own.
-/

namespace SecPlatform.Compiler.Templates

open Contracts

variable {line a b t : Text} {d i k : Nat} {c : CodeUnit} {s next r : LineScan}

theorem prismaRequire_eq_ok {p : Prop} [Decidable p] {message : Text} {u : Unit} :
    prismaRequire p message = .ok u ↔ p := require_eq_ok

theorem prismaRequire_of {p : Prop} [Decidable p] {message : Text} (h : p) : prismaRequire p message = .ok () :=
  prismaRequire_eq_ok.mpr h

def LineScan.withOpening (s : LineScan) (opening : Option Nat) : LineScan := { s with opening := opening }

/-! ## Behind the closing brace -/

/-- White space up to a comment or to the end of the line. -/
def Trails : Text → Bool
  | [] => true
  | c :: rest => (c == unit '/' && rest.head? == some (unit '/')) || (Text.isTrimSpace c && Trails rest)

theorem scanPrismaChars_closed (hclosing : s.closing.isSome) (hquoted : s.quoted = false) :
    scanPrismaChars i t s = .ok r ↔ Trails t ∧ r = s := by
  induction t generalizing i with
  | nil => simp [scanPrismaChars, Trails, eq_comm]
  | cons c rest ih =>
      unfold scanPrismaChars Trails
      split
      · rename_i hcomment
        simp [hcomment.2.1, hcomment.2.2, eq_comm]
      · rename_i hcomment
        have hno : (c == unit '/' && rest.head? == some (unit '/')) = false := by
          rw [Bool.and_eq_false_iff]
          by_contra h
          rw [not_or] at h
          exact hcomment ⟨hquoted, by simpa using h.1, by simpa using h.2⟩
        rw [scanPrismaChar, if_pos hclosing, hno, Bool.false_or, Bool.and_eq_true]
        split
        · rename_i hspace
          rw [ok_bind, ih]
          simp [hspace]
        · rename_i hspace
          simp [hspace, prismaParseError]

/-- What closes a block that is one deep. -/
theorem scanPrismaLine_closing (hb : Trails b) : scanPrismaLine (unit '\x7d' :: b) 1 = .ok ⟨0, false, false, none, some 0⟩ := by
  unfold scanPrismaLine scanPrismaChars
  rw [if_neg (by rintro ⟨-, h, -⟩; exact absurd h (by decide))]
  have hchar : scanPrismaChar 0 (unit '\x7d') ⟨1, false, false, none, none⟩ = .ok ⟨0, false, false, none, some 0⟩ := rfl
  rw [hchar, ok_bind, (scanPrismaChars_closed rfl rfl).mpr ⟨hb, rfl⟩]
  rfl

/-! ## Inside a block -/

/-- The scan is inside a block; outside of strings nothing is escaped. -/
structure Inside (s : LineScan) : Prop where
  depth : 0 < s.depth
  closing : s.closing = none
  escaped : s.quoted = false → s.escaped = false

theorem inside_plain {opening : Option Nat} (hd : 0 < d) : Inside (.plain d opening) := ⟨hd, rfl, fun _ => rfl⟩

/-- A character inside a block leaves the scan there, wherever it stands, or is the brace that closes the block. -/
theorem scanPrismaChar_inside (hs : Inside s) (h : scanPrismaChar i c s = .ok next) :
    (Inside next ∧ next.opening = s.opening ∧
        ∀ opening j, scanPrismaChar j c (s.withOpening opening) = .ok (next.withOpening opening)) ∨
      (c = unit '\x7d' ∧ s = .plain 1 s.opening ∧ next = ⟨0, false, false, s.opening, some i⟩) := by
  obtain ⟨hdepth, hclosing, hescaped⟩ := hs
  obtain ⟨depth, quoted, escaped, opening, closing⟩ := s
  dsimp only at hdepth hclosing hescaped
  subst hclosing
  unfold scanPrismaChar at h
  rw [if_neg (by simp)] at h
  split at h
  · -- in a string
    rename_i hquoted
    dsimp only at hquoted
    subst hquoted
    refine .inl ?_
    split at h
    · rename_i hesc
      cases h
      exact ⟨⟨hdepth, rfl, nofun⟩, rfl, fun _ _ => by simp_all [scanPrismaChar, LineScan.withOpening]⟩
    · rename_i hesc
      split at h
      · rename_i hback
        cases h
        exact ⟨⟨hdepth, rfl, nofun⟩, rfl, fun _ _ => by simp_all [scanPrismaChar, LineScan.withOpening]⟩
      · rename_i hback
        split at h
        · rename_i hquote
          cases h
          exact ⟨⟨hdepth, rfl, fun _ => by simpa using hesc⟩, rfl,
            fun _ _ => by simp_all [scanPrismaChar, LineScan.withOpening]⟩
        · rename_i hquote
          cases h
          exact ⟨⟨hdepth, rfl, nofun⟩, rfl, fun _ _ => by simp_all [scanPrismaChar, LineScan.withOpening]⟩
  · rename_i hquoted
    dsimp only at hquoted
    obtain rfl : quoted = false := Bool.eq_false_iff.mpr hquoted
    obtain rfl : escaped = false := hescaped rfl
    split at h
    · rename_i hquote
      cases h
      exact .inl ⟨⟨hdepth, rfl, nofun⟩, rfl, fun _ _ => by simp [scanPrismaChar, LineScan.withOpening, hquote]⟩
    · rename_i hquote
      split at h
      · rename_i hopen
        cases h
        have hne : depth ≠ 0 := Nat.pos_iff_ne_zero.mp hdepth
        exact .inl ⟨⟨Nat.succ_pos _, rfl, fun _ => rfl⟩, if_neg hne, fun _ _ => by
          simp only [scanPrismaChar, LineScan.withOpening, if_neg hquote, if_pos hopen]
          simp [hne]⟩
      · rename_i hopen
        split at h
        · rename_i hclose
          cases depth with
          | zero => exact absurd hdepth (Nat.lt_irrefl 0)
          | succ depth =>
              cases h
              rcases Nat.eq_zero_or_pos depth with rfl | hpos
              · exact .inr ⟨hclose, rfl, rfl⟩
              · have hne : depth ≠ 0 := Nat.pos_iff_ne_zero.mp hpos
                exact .inl ⟨⟨hpos, if_neg hne, fun _ => rfl⟩, rfl, fun _ _ => by
                  simp only [scanPrismaChar, LineScan.withOpening, if_neg hquote, if_neg hopen, if_pos hclose, if_neg hne]
                  simp⟩
        · rename_i hclose
          cases h
          exact .inl ⟨⟨hdepth, rfl, fun _ => rfl⟩, rfl,
            fun _ _ => by simp [scanPrismaChar, LineScan.withOpening, hquote, hopen, hclose]⟩

/-- The scan goes through a text from one depth to another, whatever follows. -/
def Through (a : Text) (s next : LineScan) : Prop :=
  ∀ opening i rest, rest.head? ≠ some (unit '/') →
    scanPrismaChars i (a ++ rest) (s.withOpening opening) =
      scanPrismaChars (i + a.length) rest (next.withOpening opening)

theorem through_nil (s : LineScan) : Through [] s s := fun _ _ _ _ => rfl

theorem Through.cons (hnot : ¬(s.quoted = false ∧ c = unit '/' ∧ a.head? = some (unit '/')))
    (hchar : ∀ opening j, scanPrismaChar j c (s.withOpening opening) = .ok (next.withOpening opening))
    (h : Through a next r) : Through (c :: a) s r := by
  intro opening i rest hrest
  rw [List.cons_append, scanPrismaChars, if_neg, hchar, ok_bind, h opening (i + 1) rest hrest, List.length_cons,
    Nat.add_assoc, Nat.add_comm 1]
  rintro ⟨hquoted, hslash, hhead⟩
  cases a with
  | nil => exact hrest hhead
  | cons d a => exact hnot ⟨hquoted, hslash, hhead⟩

/-- The scan stays inside the block, or goes through to the brace that closes it. -/
theorem scanPrismaChars_inside (hs : Inside s) (h : scanPrismaChars i t s = .ok r) :
    (Inside r ∧ ∀ opening j, scanPrismaChars j t (s.withOpening opening) = .ok (r.withOpening opening)) ∨
      ∃ a b, t = a ++ unit '\x7d' :: b ∧ Trails b ∧ Through a s (.plain 1 none) ∧
        r = ⟨0, false, false, s.opening, some (i + a.length)⟩ := by
  induction t generalizing i s with
  | nil =>
      cases h
      exact .inl ⟨hs, fun _ _ => rfl⟩
  | cons c rest ih =>
      unfold scanPrismaChars at h
      split at h
      · rename_i hcomment
        cases h
        exact .inl ⟨hs, fun _ _ => if_pos hcomment⟩
      · rename_i hcomment
        obtain ⟨next, hchar, h⟩ := bind_eq_ok.mp h
        rcases scanPrismaChar_inside hs hchar with ⟨hnext, hopening, hany⟩ | ⟨rfl, hstart, rfl⟩
        · rcases ih hnext h with ⟨hr, hscan⟩ | ⟨a, b, rfl, hb, hthrough, rfl⟩
          · refine .inl ⟨hr, fun opening j => ?_⟩
            rw [scanPrismaChars, if_neg (show ¬((s.withOpening opening).quoted = false ∧ _) from hcomment), hany, ok_bind]
            exact hscan opening (j + 1)
          · refine .inr ⟨c :: a, b, rfl, hb, .cons ?_ hany hthrough, ?_⟩
            · rintro ⟨hquoted, hslash, hhead⟩
              refine hcomment ⟨hquoted, hslash, ?_⟩
              rw [List.head?_append, hhead]
              rfl
            · rw [hopening, List.length_cons, Nat.add_assoc, Nat.add_comm 1]
        · obtain ⟨hb, rfl⟩ := (scanPrismaChars_closed rfl rfl).mp h
          refine .inr ⟨[], rest, rfl, hb, ?_, rfl⟩
          rw [hstart]
          exact fun _ _ _ _ => rfl

/-! ## Lines inside a block -/

theorem scanPrismaLine_eq_ok : scanPrismaLine line d = .ok r ↔
    scanPrismaChars 0 line (.plain d none) = .ok r ∧ r.quoted = false := by
  unfold scanPrismaLine
  constructor
  · intro h
    obtain ⟨s, hs, h⟩ := bind_eq_ok.mp h
    obtain ⟨hquoted, h⟩ := check_bind_eq_ok.mp h
    cases h
    exact ⟨hs, prismaRequire_eq_ok.mp hquoted⟩
  · rintro ⟨hs, hquoted⟩
    have hs : scanPrismaChars 0 line ⟨d, false, false, none, none⟩ = .ok r := hs
    rw [hs, ok_bind, prismaRequire_of hquoted]
    rfl

theorem Inside.eq_plain (hs : Inside s) (hquoted : s.quoted = false) : s = .plain s.depth s.opening := by
  obtain ⟨depth, quoted, escaped, opening, closing⟩ := s
  obtain ⟨-, hclosing, hescaped⟩ := hs
  dsimp only at hquoted hclosing hescaped
  rw [hescaped hquoted, hquoted, hclosing]
  rfl

/-- The scan of a line stays inside the block or closes it. -/
theorem scanPrismaLine_inside (hd : 0 < d) (h : scanPrismaLine line d = .ok r) :
    (0 < r.depth ∧ r = .plain r.depth none) ∨ ∃ a b, line = a ++ unit '\x7d' :: b ∧ Trails b ∧
      Through a (.plain d none) (.plain 1 none) ∧ r = ⟨0, false, false, none, some a.length⟩ := by
  obtain ⟨hscan, hquoted⟩ := scanPrismaLine_eq_ok.mp h
  rcases scanPrismaChars_inside (inside_plain hd) hscan with ⟨hr, hany⟩ | ⟨a, b, hline, hb, hthrough, hr⟩
  · have hopening : r = r.withOpening none := Except.ok.inj (hscan.symm.trans (hany none 0))
    refine .inl ⟨hr.depth, ?_⟩
    conv_lhs => rw [hr.eq_plain hquoted]
    rw [congrArg LineScan.opening hopening]
    rfl
  · rw [Nat.zero_add] at hr
    exact .inr ⟨a, b, hline, hb, hthrough, hr⟩

theorem Through.lone {d' : Nat} (h : Through a (.plain d none) (.plain d' none)) :
    scanPrismaLine a d = .ok (.plain d' none) := by
  have hscan := h none 0 [] nofun
  rw [List.append_nil] at hscan
  exact scanPrismaLine_eq_ok.mpr ⟨hscan, rfl⟩

/-- Text that the scan goes through, and the brace that closes the block behind it. -/
theorem Through.closing_chars (h : Through a (.plain d none) (.plain 1 none)) (hb : Trails b) (i : Nat)
    (opening : Option Nat) :
    scanPrismaChars i (a ++ unit '\x7d' :: b) (.plain d opening) = .ok ⟨0, false, false, opening, some (i + a.length)⟩ := by
  refine (h opening i _ (by rw [List.head?_cons]; decide)).trans ?_
  unfold scanPrismaChars
  rw [if_neg (by rintro ⟨-, h, -⟩; exact absurd h (by decide))]
  have hchar : scanPrismaChar (i + a.length) (unit '\x7d') (.plain 1 opening) =
      .ok ⟨0, false, false, opening, some (i + a.length)⟩ := rfl
  exact (congrArg (· >>= _) hchar).trans ((scanPrismaChars_closed rfl rfl).mpr ⟨hb, rfl⟩)

theorem Through.closing (h : Through a (.plain d none) (.plain 1 none)) (hb : Trails b) :
    scanPrismaLine (a ++ unit '\x7d' :: b) d = .ok ⟨0, false, false, none, some a.length⟩ := by
  have hscan := h.closing_chars hb 0 none
  rw [Nat.zero_add] at hscan
  exact scanPrismaLine_eq_ok.mpr ⟨hscan, rfl⟩

/-! ## White space at the end of a line -/

/-- The test at the end of a line. -/
def finishLine (s : LineScan) : Except CodedFailure LineScan := do
  prismaRequire (s.quoted = false) "Prisma string is not closed on its source line"
  return s

theorem finishLine_quoted (hs : s.quoted = true) (hnext : next.quoted = true) : finishLine s = finishLine next := by
  unfold finishLine prismaRequire require
  rw [hs, hnext, if_neg (by decide)]
  rfl

theorem ne_slash_of_isTrimSpace (h : Text.isTrimSpace c) : c ≠ unit '/' := by
  rintro rfl
  exact absurd h (by decide)

/-- White space changes nothing that the end of the line looks at. -/
theorem scanPrismaChar_space (hc : Text.isTrimSpace c) :
    ∃ next, scanPrismaChar i c s = .ok next ∧ finishLine next = finishLine s := by
  have hquote : c ≠ unit '"' := by rintro rfl; exact absurd hc (by decide)
  have hback : c ≠ unit '\\' := by rintro rfl; exact absurd hc (by decide)
  have hopen : c ≠ unit '\x7b' := by rintro rfl; exact absurd hc (by decide)
  have hclose : c ≠ unit '\x7d' := by rintro rfl; exact absurd hc (by decide)
  unfold scanPrismaChar
  split
  · exact ⟨s, rfl, rfl⟩
  · split
    · rename_i hquoted
      split
      · exact ⟨_, rfl, finishLine_quoted hquoted hquoted⟩
      · exact ⟨s, rfl, rfl⟩
    · exact ⟨s, rfl, rfl⟩

theorem scanPrismaChars_space (ht : Text.IsSpace t) : scanPrismaChars i t s >>= finishLine = finishLine s := by
  induction t generalizing i s with
  | nil => rfl
  | cons c rest ih =>
      obtain ⟨hc, hrest⟩ := List.forall_mem_cons.mp ht
      obtain ⟨next, hchar, hfinish⟩ := @scanPrismaChar_space i c s hc
      rw [scanPrismaChars, if_neg fun h => ne_slash_of_isTrimSpace hc h.2.1, hchar, ok_bind, ih hrest, hfinish]

theorem scanPrismaLine_append_space (hb : Text.IsSpace b) (a : Text) (d : Nat) :
    scanPrismaLine (a ++ b) d = scanPrismaLine a d := by
  have hchars : ∀ i s, scanPrismaChars i (a ++ b) s >>= finishLine = scanPrismaChars i a s >>= finishLine := by
    induction a with
    | nil => exact fun i s => scanPrismaChars_space hb
    | cons c a ih =>
        intro i s
        have hhead : (a ++ b).head? = some (unit '/') ↔ a.head? = some (unit '/') := by
          cases a with
          | nil =>
              cases b with
              | nil => rfl
              | cons d b => simpa using ne_slash_of_isTrimSpace (hb d List.mem_cons_self)
          | cons d a => rfl
        rw [List.cons_append, scanPrismaChars, scanPrismaChars]
        simp only [hhead]
        split
        · rfl
        · cases scanPrismaChar i c s with
          | error e => rfl
          | ok next => exact ih (i + 1) next
  exact hchars 0 _

theorem scanPrismaLine_space (ht : Text.IsSpace t) (d : Nat) : scanPrismaLine t d = .ok (.plain d none) :=
  scanPrismaLine_append_space ht [] d

/-! ## The first line of a block -/

/-- `[A-Za-z][A-Za-z0-9_]*` -/
def IsName (name : Text) : Prop := name.head?.any isLetter ∧ ∀ c ∈ name, isNameUnit c

/-- The first line of a block up to its opening brace. -/
inductive IsHeader (type name : Text) : Text → Prop
  | mk {indent gap space : Text} (hindent : Text.IsSpace indent) (htype : type ∈ blockTypes) (hgap : Text.IsSpace gap)
      (hne : gap ≠ []) (hname : IsName name) (hspace : Text.IsSpace space) :
      IsHeader type name (indent ++ (type ++ (gap ++ (name ++ (space ++ [unit '\x7b'])))))

/-- Characters that the scan passes over. -/
def IsPassed (c : CodeUnit) : Prop := c ≠ unit '/' ∧ c ≠ unit '"' ∧ c ≠ unit '\x7b' ∧ c ≠ unit '\x7d'

instance (c : CodeUnit) : Decidable (IsPassed c) := inferInstanceAs (Decidable (_ ∧ _))

theorem scanPrismaChars_passed (ha : ∀ c ∈ a, IsPassed c) (opening : Option Nat) :
    scanPrismaChars i (a ++ b) (.plain d opening) = scanPrismaChars (i + a.length) b (.plain d opening) := by
  induction a generalizing i with
  | nil => rfl
  | cons c a ih =>
      obtain ⟨⟨hslash, hquote, hopen, hclose⟩, ha⟩ := List.forall_mem_cons.mp ha
      have hchar : scanPrismaChar i c (.plain d opening) = .ok (.plain d opening) := by
        simp [scanPrismaChar, LineScan.plain, hquote, hopen, hclose]
      rw [List.cons_append, scanPrismaChars, if_neg fun h => hslash h.2.1, hchar, ok_bind, ih ha, List.length_cons,
        Nat.add_assoc, Nat.add_comm 1]

theorem isPassed_of_isTrimSpace (h : Text.isTrimSpace c) : IsPassed c := by
  refine ⟨?_, ?_, ?_, ?_⟩ <;> rintro rfl <;> exact absurd h (by decide)

theorem isPassed_of_isNameUnit (h : isNameUnit c) : IsPassed c := by
  refine ⟨?_, ?_, ?_, ?_⟩ <;> rintro rfl <;> exact absurd h (by decide)

theorem isNameUnit_of_blockType {type : Text} (h : type ∈ blockTypes) : ∀ c ∈ type, isNameUnit c := by
  have hall : (blockTypes.all fun type => type.all isNameUnit) = true := by decide
  exact List.all_eq_true.mp (List.all_eq_true.mp hall type h)

variable {type name header : Text}

theorem IsHeader.split (h : IsHeader type name header) :
    ∃ init, header = init ++ [unit '\x7b'] ∧ ∀ c ∈ init, IsPassed c := by
  cases h with
  | @mk indent gap space hindent htype hgap hne hname hspace =>
      refine ⟨indent ++ (type ++ (gap ++ (name ++ space))), by simp only [List.append_assoc], ?_⟩
      simp only [List.forall_mem_append]
      exact ⟨fun c hc => isPassed_of_isTrimSpace (hindent c hc),
        fun c hc => isPassed_of_isNameUnit (isNameUnit_of_blockType htype c hc),
        fun c hc => isPassed_of_isTrimSpace (hgap c hc), fun c hc => isPassed_of_isNameUnit (hname.2 c hc),
        fun c hc => isPassed_of_isTrimSpace (hspace c hc)⟩

theorem scanPrismaChars_header (h : IsHeader type name header) (b : Text) :
    scanPrismaChars 0 (header ++ b) (.plain 0 none) =
      scanPrismaChars header.length b (.plain 1 (some (header.length - 1))) := by
  obtain ⟨init, rfl, hinit⟩ := h.split
  rw [List.append_assoc, scanPrismaChars_passed hinit, List.singleton_append, scanPrismaChars,
    if_neg (by rintro ⟨-, h, -⟩; exact absurd h (by decide)), List.length_append, List.length_singleton, Nat.zero_add]
  rfl

/-- What the scan of the text behind a header says about the whole line. -/
def LineScan.behind (header : Text) (r : LineScan) : LineScan :=
  ⟨r.depth, false, false, some (header.length - 1), r.closing.map (header.length + ·)⟩

theorem scanPrismaLine_header (h : IsHeader type name header) : scanPrismaLine (header ++ b) 0 = .ok r ↔
    ∃ r', scanPrismaLine b 1 = .ok r' ∧ r = r'.behind header := by
  rw [scanPrismaLine_eq_ok, scanPrismaChars_header h]
  constructor
  · rintro ⟨hscan, hquoted⟩
    rcases scanPrismaChars_inside (inside_plain (Nat.zero_lt_one)) hscan with ⟨hr, hany⟩ | ⟨a, tail, rfl, hb, hthrough, rfl⟩
    · have hopening := Except.ok.inj (hscan.symm.trans (hany (some (header.length - 1)) header.length))
      refine ⟨r.withOpening none, scanPrismaLine_eq_ok.mpr ⟨hany none 0, hquoted⟩, ?_⟩
      conv_lhs => rw [hr.eq_plain hquoted, congrArg LineScan.opening hopening]
      simp [LineScan.behind, LineScan.withOpening, LineScan.plain, hr.closing]
    · exact ⟨_, Through.closing (fun opening => hthrough opening) hb, rfl⟩
  · rintro ⟨r', hscan, rfl⟩
    refine ⟨?_, rfl⟩
    obtain ⟨hchars, hquoted⟩ := scanPrismaLine_eq_ok.mp hscan
    rcases scanPrismaChars_inside (inside_plain (Nat.zero_lt_one)) hchars with ⟨hr, hany⟩ | ⟨a, tail, rfl, hb, hthrough, rfl⟩
    · refine (hany (some (header.length - 1)) header.length).trans ?_
      rw [hr.eq_plain hquoted]
      rfl
    · refine (Through.closing_chars hthrough hb _ _).trans ?_
      rw [Nat.zero_add]
      rfl

/-! ## The header -/

theorem matchName_eq_some {u b : Text} : matchName u = some (name, b) ↔
    u = name ++ b ∧ IsName name ∧ b.head?.any isNameUnit = false := by
  unfold matchName IsName
  constructor
  · intro h
    split at h
    · rename_i hletter
      cases h
      have hsplit := (List.takeWhile_append_dropWhile : u.takeWhile isNameUnit ++ u.dropWhile isNameUnit = u)
      refine ⟨hsplit.symm, ⟨?_, fun c hc => List.all_eq_true.mp List.all_takeWhile c hc⟩, ?_⟩
      · cases u with
        | nil => exact absurd hletter Bool.false_ne_true
        | cons c u =>
            have hletter : isLetter c := hletter
            rw [List.takeWhile_cons_of_pos (by rw [isNameUnit, hletter]; rfl)]
            exact hletter
      · have hhead := List.head?_dropWhile_not isNameUnit u
        cases hb : (u.dropWhile isNameUnit).head? with
        | none => rfl
        | some c =>
            rw [hb] at hhead
            simpa using hhead
    · cases h
  · rintro ⟨rfl, ⟨hletter, hunits⟩, hb⟩
    have hne : name ≠ [] := by
      rintro rfl
      exact absurd hletter Bool.false_ne_true
    rw [List.head?_append_of_ne_nil _ hne, if_pos hletter, List.takeWhile_append_of_pos hunits,
      List.dropWhile_append_of_pos hunits]
    cases b with
    | nil => simp
    | cons c b =>
        have hc : isNameUnit c = false := hb
        rw [List.takeWhile_cons_of_neg (by rw [hc]; exact Bool.false_ne_true),
          List.dropWhile_cons_of_neg (by rw [hc]; exact Bool.false_ne_true), List.append_nil]

theorem blockType_of_isPrefix {type other u : Text} (htype : type ∈ blockTypes) (hother : other ∈ blockTypes)
    (h : type <+: u) (h' : other <+: u) : type = other := by
  have hall : (blockTypes.all fun type => blockTypes.all fun other => !decide (type <+: other) || decide (type = other)) =
      true := by decide
  have hpair : ∀ type ∈ blockTypes, ∀ other ∈ blockTypes, type <+: other → type = other := by
    intro type htype other hother hpre
    have h := List.all_eq_true.mp (List.all_eq_true.mp hall type htype) other hother
    simpa [hpre] using h
  rcases List.prefix_or_prefix_of_prefix h h' with hpre | hpre
  · exact hpair type htype other hother hpre
  · exact (hpair other hother type htype hpre).symm

theorem le_of_isNameUnit (h : isNameUnit c) : c ≤ unit 'z' := by
  have hletter : ∀ d : CodeUnit, d ≤ unit 'Z' → d ≤ unit 'z' := fun d hd => le_trans hd (by decide)
  simp only [isNameUnit, isLetter, Bool.or_eq_true, Bool.and_eq_true, decide_eq_true_eq, beq_iff_eq] at h
  rcases h with ((h | h) | h) | rfl
  · exact hletter c h.2
  · exact h.2
  · exact le_trans h.2 (by decide)
  · decide

theorem not_isTrimSpace_of_isNameUnit (h : isNameUnit c) : Text.isTrimSpace c = false := by
  by_contra hspace
  rw [Bool.not_eq_false, Text.isTrimSpace, Bool.or_eq_true, Bool.and_eq_true] at hspace
  simp only [decide_eq_true_eq, List.mem_cons, List.not_mem_nil, or_false] at hspace
  rcases hspace with hspace | hspace
  · rcases hspace with rfl | rfl | rfl | rfl | rfl | rfl | rfl | rfl | rfl | rfl | rfl | rfl | rfl | rfl <;>
      exact absurd h (by decide)
  · exact absurd (le_trans hspace.1 (le_of_isNameUnit h)) (by decide)

theorem isName_head {u : Text} (h : IsName name) : ∃ c rest, name ++ u = c :: rest ∧ Text.isTrimSpace c = false := by
  cases name with
  | nil => exact absurd h.1 Bool.false_ne_true
  | cons c rest => exact ⟨c, rest ++ u, rfl, not_isTrimSpace_of_isNameUnit (h.2 c List.mem_cons_self)⟩

theorem dropWhile_isSpace {u : Text} (ha : Text.IsSpace a) (hc : Text.isTrimSpace c = false) :
    (a ++ c :: u).dropWhile Text.isTrimSpace = c :: u := by
  rw [List.dropWhile_append_of_pos ha, List.dropWhile_cons_of_neg (by rw [hc]; exact Bool.false_ne_true)]

theorem matchBlockHeader_eq_some {u : Text} : matchBlockHeader u = some (type, name) ↔
    ∃ gap space b, u = type ++ (gap ++ (name ++ (space ++ unit '\x7b' :: b))) ∧ type ∈ blockTypes ∧ Text.IsSpace gap ∧
      gap ≠ [] ∧ IsName name ∧ Text.IsSpace space := by
  unfold matchBlockHeader
  constructor
  · intro h
    obtain ⟨type', hfind, h⟩ := Option.bind_eq_some_iff.mp h
    have hpre : type' <+: u := by simpa using List.find?_some hfind
    obtain ⟨behind, rfl⟩ := hpre
    rw [List.drop_left] at h
    dsimp only at h
    split at h
    · rename_i hspace
      obtain ⟨⟨name', b⟩, hname, h⟩ := Option.bind_eq_some_iff.mp h
      dsimp only at h
      split at h
      · rename_i hbrace
        cases h
        obtain ⟨hnamed, hname, -⟩ := matchName_eq_some.mp hname
        obtain ⟨rest, hrest⟩ := List.head?_eq_some_iff.mp hbrace
        refine ⟨behind.takeWhile Text.isTrimSpace, b.takeWhile Text.isTrimSpace, rest, ?_, List.mem_of_find?_eq_some hfind,
          fun c hc => List.all_eq_true.mp List.all_takeWhile c hc, ?_, hname,
          fun c hc => List.all_eq_true.mp List.all_takeWhile c hc⟩
        · rw [← hrest, List.takeWhile_append_dropWhile, ← hnamed, List.takeWhile_append_dropWhile]
        · cases behind with
          | nil => exact absurd hspace Bool.false_ne_true
          | cons c behind =>
              have hspace : Text.isTrimSpace c := hspace
              rw [List.takeWhile_cons_of_pos hspace]
              exact List.cons_ne_nil _ _
      · cases h
    · cases h
  · rintro ⟨gap, space, b, rfl, htype, hgap, hne, hname, hspace⟩
    have hfind : blockTypes.find? (· <+: type ++ (gap ++ (name ++ (space ++ unit '\x7b' :: b)))) = some type := by
      cases hfound : blockTypes.find? (· <+: type ++ (gap ++ (name ++ (space ++ unit '\x7b' :: b)))) with
      | none => simpa using List.find?_eq_none.mp hfound type htype
      | some other =>
          have hother : other <+: type ++ (gap ++ (name ++ (space ++ unit '\x7b' :: b))) := by
            simpa using List.find?_some hfound
          rw [blockType_of_isPrefix htype (List.mem_of_find?_eq_some hfound) (List.prefix_append _ _) hother]
    obtain ⟨d, gap, rfl⟩ := List.exists_cons_of_ne_nil hne
    obtain ⟨c, rest, hcons, hc⟩ := @isName_head name (space ++ unit '\x7b' :: b) hname
    have hunit : (space ++ unit '\x7b' :: b).head?.any isNameUnit = false := by
      cases space with
      | nil => rfl
      | cons e space =>
          refine Bool.eq_false_iff.mpr fun h => ?_
          exact Bool.eq_false_iff.mp (not_isTrimSpace_of_isNameUnit h) (hspace e List.mem_cons_self)
    have hbrace : Text.isTrimSpace (unit '\x7b') = false := by decide
    rw [hfind, Option.bind_some, List.drop_left]
    dsimp only
    rw [List.cons_append, List.head?_cons, Option.any_some, if_pos (hgap d List.mem_cons_self), ← List.cons_append, hcons, dropWhile_isSpace hgap hc, ← hcons,
      matchName_eq_some.mpr ⟨rfl, hname, hunit⟩, Option.bind_some]
    dsimp only
    rw [dropWhile_isSpace hspace hbrace, List.head?_cons, if_pos rfl]

/-- A line that begins a block, trimmed or not, begins with a header. -/
theorem matchBlockHeader_trim : matchBlockHeader line.trim = some (type, name) ↔
    ∃ header b, line = header ++ b ∧ IsHeader type name header := by
  rw [matchBlockHeader_eq_some]
  constructor
  · rintro ⟨gap, space, b, htrim, htype, hgap, hne, hname, hspace⟩
    obtain ⟨indent, behind, hindent, -, hline⟩ := Text.exists_trim line
    refine ⟨_, b ++ behind, ?_, .mk hindent htype hgap hne hname hspace⟩
    rw [hline, htrim]
    simp only [List.append_assoc, List.cons_append, List.nil_append]
  · rintro ⟨header, b, rfl, hheader⟩
    cases hheader with
    | @mk indent gap space hindent htype hgap hne hname hspace =>
        refine ⟨gap, space, Text.trimEnd b, ?_, htype, hgap, hne, hname, hspace⟩
        have hbrace : Text.isTrimSpace (unit '\x7b') = false := by decide
        have hsplit : indent ++ (type ++ (gap ++ (name ++ (space ++ [unit '\x7b'])))) ++ b =
            indent ++ ((type ++ (gap ++ (name ++ space))) ++ unit '\x7b' :: b) := by
          simp only [List.append_assoc, List.singleton_append]
        have hstart : Text.trimStart (type ++ (gap ++ (name ++ space))) = type ++ (gap ++ (name ++ space)) := by
          have hunits := isNameUnit_of_blockType htype
          cases type with
          | nil => exact absurd htype (by decide)
          | cons c type =>
              exact Text.trimStart_cons (not_isTrimSpace_of_isNameUnit (hunits c List.mem_cons_self)) _
        rw [hsplit, Text.trim_append_left hindent, Text.trim_append_cons hbrace, hstart]
        simp only [List.append_assoc]

end SecPlatform.Compiler.Templates
