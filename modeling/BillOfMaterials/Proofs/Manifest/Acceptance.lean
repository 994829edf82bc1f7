import Mathlib.Data.List.Forall2
import Mathlib.Data.Nat.Digits.Defs
import BillOfMaterials.Manifest.Parser
import BillOfMaterials.Proofs.Text.Lines

/-! # Which texts are manifests

    The format of a manifest, said without the order in which it is read.

    * `HoldsValues` and `HoldsData` say what a line and a text hold: values up to a
      comment, for each line that has any.
    * `IsKeyLength`, `IsAlgorithm` and `IsEntry` say what values mean, `IsFault` why they
      mean nothing.  Of any values just one of the two is true
      (`readEntry_of_isEntry`, `readEntry_of_isFault`, `isEntry_or_isFault`).
    * `readEntries_eq_ok_iff` and `readEntries_eq_error_iff` lift this to rows of values:
      the first fault is the error, and it is numbered.
    * `ofText_outcome` puts all of it together. -/

namespace BillOfMaterials.Manifest

open Text

/-! ## What a text holds -/

/-- The values of a line: its words, up to the first that begins with `#`. -/
def HoldsValues (line : List Char) (values : List (List Char)) : Prop :=
  ∃ comment, HasWords line (values ++ comment) ∧ (∀ value ∈ values, value.head? ≠ some '#') ∧
    ∀ first ∈ comment.head?, first.head? = some '#'

/-- The values of each line that holds any. -/
def HoldsData (text : List Char) (data : List (List (List Char))) : Prop :=
  ∃ lines values, HasLines text lines ∧ List.Forall₂ HoldsValues lines values ∧
    data = values.filter (!·.isEmpty)

/-- Lines with others in between that hold no value: blank lines and comments. -/
inductive Padded : List (List Char) → List (List Char) → Prop where
  | nil : Padded [] []
  | keep (line : List Char) {lines others : List (List Char)} : Padded lines others →
      Padded (line :: lines) (line :: others)
  | idle {line : List Char} {lines others : List (List Char)} : HoldsValues line [] →
      Padded lines others → Padded lines (line :: others)

theorem takeWhile_append_of_head? {α : Type} {keep : α → Bool} {before after : List α}
    (hbefore : ∀ x ∈ before, keep x) (hafter : ∀ x ∈ after.head?, keep x = false) :
    (before ++ after).takeWhile keep = before := by
  rw [List.takeWhile_append_of_pos hbefore]
  cases after with
  | nil => simp
  | cons x after => simp [hafter x rfl]

theorem holdsValues_iff {line : List Char} {values : List (List Char)} :
    HoldsValues line values ↔ Manifest.values line = values := by
  unfold Manifest.values
  constructor
  · rintro ⟨comment, hwords, hvalues, hcomment⟩
    rw [hwords.words_eq]
    apply takeWhile_append_of_head?
    · simpa using hvalues
    · simpa using hcomment
  · rintro rfl
    refine ⟨(words line).dropWhile fun word => word.head? != some '#', ?_, ?_, ?_⟩
    · rw [List.takeWhile_append_dropWhile, hasWords_iff]
    · intro value hvalue
      simpa using List.all_eq_true.1 List.all_takeWhile value hvalue
    · intro first hfirst
      have hstop := List.head?_dropWhile_not (fun word => word.head? != some '#') (words line)
      rw [hfirst] at hstop
      simpa using hstop

theorem values_carriageReturn (line : List Char) : values (line ++ ['\r']) = values line := by
  rw [values, words_append_blank rfl, words_nil, List.append_nil, ← values]

/-- A line without its end is one piece. -/
theorem pieces_line {line : List Char} (h : '\n' ∉ line) : pieces (· == '\n') line = [line] := by
  apply pieces_of_no_sep
  intro c hc
  exact beq_false_of_ne fun heq => h (heq ▸ hc)

theorem dataLines_append {line : List Char} (h : '\n' ∉ line) (rest : List Char) :
    dataLines (line ++ '\n' :: rest) = [values line].filter (!·.isEmpty) ++ dataLines rest := by
  rw [dataLines, pieces_append_sep rfl, pieces_line h, List.map_append, List.filter_append]
  rfl

/-- A carriage return is left on the piece, but it is a blank and so in no word. -/
theorem dataLines_append_carriageReturn {line : List Char} (h : '\n' ∉ line) (rest : List Char) :
    dataLines (line ++ '\r' :: '\n' :: rest) =
      [values line].filter (!·.isEmpty) ++ dataLines rest := by
  have hreturn : '\n' ∉ line ++ ['\r'] := by simpa using h
  have hsplit := dataLines_append hreturn rest
  rwa [values_carriageReturn, List.append_assoc, List.singleton_append] at hsplit

/-- A line without an end. -/
theorem dataLines_line {line : List Char} (h : '\n' ∉ line) :
    dataLines line = [values line].filter (!·.isEmpty) := by
  rw [dataLines, pieces_line h]
  rfl

/-- How the lines end is of no account. -/
theorem dataLines_eq {text : List Char} {lines : List (List Char)} (h : HasLines text lines) :
    dataLines text = (lines.map values).filter (!·.isEmpty) := by
  induction h with
  | nil => rfl
  | last _ hline => exact dataLines_line hline
  | lineFeed hline _ _ ih =>
    rw [dataLines_append hline, ih]
    exact (List.filter_append ..).symm
  | carriageReturn hline _ ih =>
    rw [dataLines_append_carriageReturn hline, ih]
    exact (List.filter_append ..).symm

theorem forall₂_holdsValues_iff {lines : List (List Char)} {values : List (List (List Char))} :
    List.Forall₂ HoldsValues lines values ↔ values = lines.map Manifest.values := by
  have hrelation : HoldsValues = fun line values => Manifest.values line = values := by
    funext line values
    exact propext holdsValues_iff
  rw [hrelation, ← List.forall₂_map_left_iff, List.forall₂_eq_eq_eq]
  exact eq_comm

theorem holdsData_iff {text : List Char} {data : List (List (List Char))} :
    HoldsData text data ↔ data = dataLines text := by
  constructor
  · rintro ⟨lines, values, hlines, hvalues, rfl⟩
    rw [forall₂_holdsValues_iff.1 hvalues, dataLines_eq hlines]
  · rintro rfl
    obtain ⟨lines, hlines⟩ := exists_lines text
    exact ⟨lines, _, hlines, forall₂_holdsValues_iff.2 rfl, dataLines_eq hlines⟩

theorem Padded.filter_eq {lines others : List (List Char)} (h : Padded lines others) :
    (others.map values).filter (!·.isEmpty) = (lines.map values).filter (!·.isEmpty) := by
  induction h with
  | nil => rfl
  | keep line _ ih => simp only [List.map_cons, List.filter_cons, ih]
  | idle hidle _ ih => simp [holdsValues_iff.1 hidle, ih]

/-! ## Key lengths -/

/-- A number in decimal digits. -/
def decimal (digits : List Char) : Nat :=
  Nat.ofDigits 10 (digits.map fun digit => digit.toNat - '0'.toNat).reverse

theorem ofDigitChars_eq_decimal (digits : List Char) (n : Nat) :
    Nat.ofDigitChars 10 digits n = decimal digits + 10 ^ digits.length * n := by
  induction digits generalizing n with
  | nil => simp [decimal]
  | cons digit digits ih =>
    rw [Nat.ofDigitChars_cons, ih]
    simp [decimal, Nat.ofDigits_append, Nat.pow_succ]
    ring

/-- A key length: decimal digits of a positive number of 64 bits, after a plus sign or
    none. -/
inductive IsKeyLength : List Char → Nat → Prop where
  | mk {sign digits : List Char} : sign = [] ∨ sign = ['+'] → digits ≠ [] →
      (∀ digit ∈ digits, digit.isDigit) → 1 ≤ decimal digits → decimal digits ≤ 2 ^ 64 - 1 →
      IsKeyLength (sign ++ digits) (decimal digits)

/-- What is read of the digits that are left without the sign. -/
theorem readKeyLength_of_digits {text digits : List Char}
    (h : (if text.head? = some '+' then text.tail else text) = digits) {length : Nat} :
    readKeyLength text = some length ↔
      (digits ≠ [] ∧ (∀ digit ∈ digits, digit.isDigit) ∧ 1 ≤ decimal digits ∧
        decimal digits ≤ 2 ^ 64 - 1) ∧ decimal digits = length := by
  have hbound : ∀ n, n < keyLengthBound ↔ n ≤ 2 ^ 64 - 1 := fun n => Nat.lt_iff_le_pred (by decide)
  simp only [readKeyLength, h, ofDigitChars_eq_decimal, Nat.mul_zero, Nat.add_zero]
  simp [hbound, and_assoc]

theorem readKeyLength_eq_some_iff {text : List Char} {length : Nat} :
    readKeyLength text = some length ↔ IsKeyLength text length := by
  constructor
  · intro h
    by_cases hsign : text.head? = some '+'
    · obtain ⟨digits, rfl⟩ := List.head?_eq_some_iff.1 hsign
      obtain ⟨⟨hne, hdigits, hlow, hhigh⟩, rfl⟩ := (readKeyLength_of_digits rfl).1 h
      exact .mk (.inr rfl) hne hdigits hlow hhigh
    · obtain ⟨⟨hne, hdigits, hlow, hhigh⟩, rfl⟩ := (readKeyLength_of_digits (if_neg hsign)).1 h
      exact .mk (.inl rfl) hne hdigits hlow hhigh
  · rintro ⟨rfl | rfl, hne, hdigits, hlow, hhigh⟩
    · rename_i digits
      -- The sign is no digit, so none is taken off here.
      have hsign : digits.head? ≠ some '+' := by
        intro hplus
        exact absurd (hdigits _ (List.mem_of_mem_head? hplus)) (by decide)
      exact (readKeyLength_of_digits (if_neg hsign)).2 ⟨⟨hne, hdigits, hlow, hhigh⟩, rfl⟩
    · exact (readKeyLength_of_digits rfl).2 ⟨⟨hne, hdigits, hlow, hhigh⟩, rfl⟩

/-! ## Algorithms -/

/-- The value names an algorithm: a name up to the first colon, and after the colon a key
    length or nothing. -/
inductive IsAlgorithm : List Char → Algorithm → Prop where
  | plain {name : List Char} : ':' ∉ name → IsAlgorithm name ⟨String.ofList name, none⟩
  | empty {name : List Char} : ':' ∉ name → IsAlgorithm (name ++ [':']) ⟨String.ofList name, none⟩
  | keyed {name suffix : List Char} {length : Nat} : ':' ∉ name → IsKeyLength suffix length →
      IsAlgorithm (name ++ ':' :: suffix) ⟨String.ofList name, some length⟩

/-- What follows the first colon is something, but no key length. -/
inductive HasFaultySuffix : List Char → String → Prop where
  | mk {name suffix : List Char} : ':' ∉ name → suffix ≠ [] →
      (∀ length, ¬ IsKeyLength suffix length) →
      HasFaultySuffix (name ++ ':' :: suffix) (String.ofList suffix)

theorem IsKeyLength.ne_nil {text : List Char} {length : Nat} (h : IsKeyLength text length) :
    text ≠ [] := by
  obtain ⟨-, hne, -, -, -⟩ := h
  simp [hne]

theorem cutAt_colon {name : List Char} (h : ':' ∉ name) (suffix : List Char) :
    cutAt [':'] (name ++ ':' :: suffix) = some (name, suffix) := by
  apply cutAt_append
  rintro c hc rfl
  exact h hc

theorem readAlgorithm_of_isAlgorithm {value : List Char} {algorithm : Algorithm}
    (h : IsAlgorithm value algorithm) : readAlgorithm value = .ok algorithm := by
  cases h with
  | plain hname =>
    have hcut : cutAt [':'] value = none := by
      apply cutAt_eq_none
      rintro c hc rfl
      exact hname hc
    rw [readAlgorithm, hcut]
  | empty hname => rw [readAlgorithm, cutAt_colon hname]
  | keyed hname hlength =>
    rw [readAlgorithm, cutAt_colon hname]
    have hne := hlength.ne_nil
    simp [readKeyLength_eq_some_iff.2 hlength]

theorem readAlgorithm_of_hasFaultySuffix {value : List Char} {suffix : String}
    (h : HasFaultySuffix value suffix) : readAlgorithm value = .error suffix := by
  obtain ⟨hname, hne, hsuffix⟩ := h
  rename_i name suffix
  have hnone : readKeyLength suffix = none := by
    rw [Option.eq_none_iff_forall_ne_some]
    intro length hlength
    exact hsuffix length (readKeyLength_eq_some_iff.1 hlength)
  rw [readAlgorithm, cutAt_colon hname]
  simp [hnone]

theorem isAlgorithm_or_hasFaultySuffix (value : List Char) :
    (∃ algorithm, IsAlgorithm value algorithm) ∨ ∃ suffix, HasFaultySuffix value suffix := by
  by_cases hcolon : ':' ∈ value
  · obtain ⟨name, suffix, rfl, hname⟩ := List.eq_append_cons_of_mem hcolon
    by_cases hne : suffix = []
    · subst hne
      exact .inl ⟨_, .empty hname⟩
    by_cases hlength : ∃ length, IsKeyLength suffix length
    · obtain ⟨length, hlength⟩ := hlength
      exact .inl ⟨_, .keyed hname hlength⟩
    · exact .inr ⟨_, .mk hname hne (not_exists.1 hlength)⟩
  · exact .inl ⟨_, .plain hcolon⟩

/-! ## Entries -/

/-- Three values make an entry. -/
inductive IsEntry : List (List Char) → Entry → Prop where
  | mk {value digest asset : List Char} {algorithm : Algorithm} : IsAlgorithm value algorithm →
      IsEntry [value, digest, asset]
        ⟨algorithm, String.ofList (digest.map Char.toLower), String.ofList asset⟩

/-- Why the values with number `n` make none. -/
inductive IsFault (n : Nat) : List (List Char) → FormatError → Prop where
  | tooManyValues {values : List (List Char)} : 3 < values.length →
      IsFault n values (.tooManyValues n)
  | tooFewValues {values : List (List Char)} : values.length < 3 →
      IsFault n values (.tooFewValues n)
  | invalidKeyLength {value digest asset : List Char} {suffix : String} :
      HasFaultySuffix value suffix →
      IsFault n [value, digest, asset] (.invalidKeyLength n suffix)

theorem readEntry_of_isEntry (n : Nat) {values : List (List Char)} {entry : Entry}
    (h : IsEntry values entry) : readEntry n values = .ok entry := by
  obtain ⟨halgorithm⟩ := h
  rw [readEntry, readAlgorithm_of_isAlgorithm halgorithm]
  simp [Entry.listing, lowered]

theorem readEntry_of_length_ne {n : Nat} {values : List (List Char)} (h : values.length ≠ 3) :
    readEntry n values =
      .error (if 3 < values.length then .tooManyValues n else .tooFewValues n) := by
  unfold readEntry
  split
  · exact absurd rfl h
  · rfl

theorem readEntry_of_isFault {n : Nat} {values : List (List Char)} {fault : FormatError}
    (h : IsFault n values fault) : readEntry n values = .error fault := by
  cases h with
  | tooManyValues hlength => rw [readEntry_of_length_ne (by omega), if_pos hlength]
  | tooFewValues hlength => rw [readEntry_of_length_ne (by omega), if_neg (by omega)]
  | invalidKeyLength hsuffix => rw [readEntry, readAlgorithm_of_hasFaultySuffix hsuffix]

theorem isEntry_or_isFault (n : Nat) (values : List (List Char)) :
    (∃ entry, IsEntry values entry) ∨ ∃ fault, IsFault n values fault := by
  rcases Nat.lt_trichotomy values.length 3 with hlength | hlength | hlength
  · exact .inr ⟨_, .tooFewValues hlength⟩
  · obtain ⟨value, digest, asset, rfl⟩ := List.length_eq_three.1 hlength
    rcases isAlgorithm_or_hasFaultySuffix value with ⟨algorithm, h⟩ | ⟨suffix, h⟩
    · exact .inl ⟨_, .mk h⟩
    · exact .inr ⟨_, .invalidKeyLength h⟩
  · exact .inr ⟨_, .tooManyValues hlength⟩

theorem readEntry_eq_ok_iff {n : Nat} {values : List (List Char)} {entry : Entry} :
    readEntry n values = .ok entry ↔ IsEntry values entry := by
  constructor
  · intro h
    -- One of the two is true of any values, and the other result excludes the second.
    rcases isEntry_or_isFault n values with ⟨entry', hentry⟩ | ⟨fault, hfault⟩
    · rw [readEntry_of_isEntry n hentry] at h
      rwa [← Except.ok.inj h]
    · rw [readEntry_of_isFault hfault] at h
      cases h
  · exact readEntry_of_isEntry n

theorem readEntry_eq_error_iff {n : Nat} {values : List (List Char)} {fault : FormatError} :
    readEntry n values = .error fault ↔ IsFault n values fault := by
  constructor
  · intro h
    rcases isEntry_or_isFault n values with ⟨entry, hentry⟩ | ⟨fault', hfault⟩
    · rw [readEntry_of_isEntry n hentry] at h
      cases h
    · rw [readEntry_of_isFault hfault] at h
      rwa [← Except.error.inj h]
  · exact readEntry_of_isFault

/-! ## Rows of values -/

theorem readEntries_cons_of_ok {n : Nat} {values : List (List Char)} {entry : Entry}
    (h : readEntry n values = .ok entry) (rest : List (List (List Char))) :
    readEntries n (values :: rest) = (readEntries (n + 1) rest).map (entry :: ·) := by
  rw [readEntries, h]
  cases readEntries (n + 1) rest <;> rfl

theorem readEntries_cons_of_error {n : Nat} {values : List (List Char)} {fault : FormatError}
    (h : readEntry n values = .error fault) (rest : List (List (List Char))) :
    readEntries n (values :: rest) = .error fault := by
  rw [readEntries, h]
  rfl

theorem readEntries_eq_ok_iff {n : Nat} {data : List (List (List Char))} {entries : List Entry} :
    readEntries n data = .ok entries ↔ List.Forall₂ IsEntry data entries := by
  constructor
  · intro h
    induction data generalizing n entries with
    | nil =>
      cases h
      exact .nil
    | cons values rest ih =>
      cases hfirst : readEntry n values with
      | error fault =>
        rw [readEntries_cons_of_error hfirst] at h
        cases h
      | ok entry =>
        rw [readEntries_cons_of_ok hfirst] at h
        cases hrest : readEntries (n + 1) rest with
        | error fault =>
          rw [hrest] at h
          cases h
        | ok others =>
          rw [hrest] at h
          cases h
          exact .cons (readEntry_eq_ok_iff.1 hfirst) (ih hrest)
  · intro h
    induction h generalizing n with
    | nil => rfl
    | cons hentry _ ih =>
      rw [readEntries_cons_of_ok (readEntry_of_isEntry n hentry), ih]
      rfl

theorem exists_entries_iff {data : List (List (List Char))} :
    (∃ entries, List.Forall₂ IsEntry data entries) ↔
      ∀ values ∈ data, ∃ entry, IsEntry values entry := by
  induction data with
  | nil => exact iff_of_true ⟨[], .nil⟩ (by simp)
  | cons values rest ih =>
    rw [List.forall_mem_cons, ← ih]
    constructor
    · rintro ⟨_, _ | ⟨hentry, hrest⟩⟩
      exact ⟨⟨_, hentry⟩, ⟨_, hrest⟩⟩
    · rintro ⟨⟨entry, hentry⟩, ⟨entries, hrest⟩⟩
      exact ⟨_, .cons hentry hrest⟩

/-- The error is the first fault, under its number. -/
theorem readEntries_eq_error_iff {n : Nat} {data : List (List (List Char))} {fault : FormatError} :
    readEntries n data = .error fault ↔ ∃ before values after, data = before ++ values :: after ∧
      (∀ earlier ∈ before, ∃ entry, IsEntry earlier entry) ∧
      IsFault (n + before.length) values fault := by
  constructor
  · intro h
    induction data generalizing n with
    | nil => cases h
    | cons values rest ih =>
      cases hfirst : readEntry n values with
      | error first =>
        rw [readEntries_cons_of_error hfirst] at h
        cases h
        exact ⟨[], values, rest, rfl, by simp, readEntry_eq_error_iff.1 hfirst⟩
      | ok entry =>
        have hrest : readEntries (n + 1) rest = .error fault := by
          rw [readEntries_cons_of_ok hfirst] at h
          cases hrest : readEntries (n + 1) rest with
          | error other =>
            rw [hrest] at h
            exact h
          | ok others =>
            rw [hrest] at h
            cases h
        -- The rest is numbered from the next number, which one more line in front makes up for.
        obtain ⟨before, faulty, after, rfl, hbefore, hfault⟩ := ih hrest
        have hentry : ∃ entry, IsEntry values entry := ⟨entry, readEntry_eq_ok_iff.1 hfirst⟩
        refine ⟨values :: before, faulty, after, rfl, by simpa using ⟨hentry, hbefore⟩, ?_⟩
        rwa [List.length_cons, Nat.add_comm before.length, ← Nat.add_assoc]
  · rintro ⟨before, values, after, rfl, hbefore, hfault⟩
    induction before generalizing n with
    | nil => exact readEntries_cons_of_error (readEntry_of_isFault hfault) after
    | cons earlier before ih =>
      obtain ⟨entry, hentry⟩ := hbefore earlier List.mem_cons_self
      rw [List.length_cons, Nat.add_comm before.length, ← Nat.add_assoc] at hfault
      have hlater : ∀ other ∈ before, ∃ entry, IsEntry other entry :=
        fun other hother => hbefore other (List.mem_cons_of_mem earlier hother)
      have hrest := ih hlater hfault
      rw [List.cons_append, readEntries_cons_of_ok (readEntry_of_isEntry n hentry), hrest]
      rfl

/-! ## Texts -/

theorem ofText_eq (text : String) :
    ofText text = (readEntries 1 (dataLines text.toList)).map Manifest.mk := by
  rw [ofText]
  cases readEntries 1 (dataLines text.toList) <;> rfl

theorem ofText_eq_ok_iff {text : String} {manifest : Manifest} :
    ofText text = .ok manifest ↔ List.Forall₂ IsEntry (dataLines text.toList) manifest.entries := by
  rw [ofText_eq, ← @readEntries_eq_ok_iff 1]
  cases readEntries 1 (dataLines text.toList) with
  | error fault => exact iff_of_false nofun nofun
  | ok entries =>
    cases manifest
    simp [Except.map]

theorem ofText_eq_error_iff {text : String} {fault : FormatError} :
    ofText text = .error fault ↔ readEntries 1 (dataLines text.toList) = .error fault := by
  rw [ofText_eq]
  cases readEntries 1 (dataLines text.toList) with
  | error first => rw [Except.map, Except.error.injEq, Except.error.injEq]
  | ok entries => exact iff_of_false nofun nofun

/-- **Reading a manifest.** A text holds values in one way.  It is a manifest just when
    the values of each line make an entry, and then these are its entries.  Else the
    error is that of the first line whose values make none, under its number among the
    lines that hold any, whatever follows.  Lines that hold none can be put in or left
    out. -/
theorem ofText_outcome (text : String) :
    ∃ data, (∀ other, HoldsData text.toList other ↔ other = data) ∧
      ((∃ manifest, ofText text = .ok manifest) ↔ ∀ values ∈ data, ∃ entry, IsEntry values entry) ∧
      (∀ manifest, ofText text = .ok manifest ↔ List.Forall₂ IsEntry data manifest.entries) ∧
      (∀ fault, ofText text = .error fault ↔
        ∃ before values after, data = before ++ values :: after ∧
          (∀ earlier ∈ before, ∃ entry, IsEntry earlier entry) ∧
          IsFault (before.length + 1) values fault) ∧
      ∀ (other : String) (lines others : List (List Char)), HasLines text.toList lines →
        HasLines other.toList others → Padded lines others → ofText other = ofText text := by
  refine ⟨dataLines text.toList, fun _ => holdsData_iff, ?_, fun _ => ofText_eq_ok_iff, ?_, ?_⟩
  · rw [← exists_entries_iff]
    constructor
    · rintro ⟨manifest, h⟩
      exact ⟨manifest.entries, ofText_eq_ok_iff.1 h⟩
    · rintro ⟨entries, h⟩
      exact ⟨⟨entries⟩, ofText_eq_ok_iff.2 h⟩
  · intro fault
    rw [ofText_eq_error_iff, readEntries_eq_error_iff]
    simp only [Nat.add_comm 1]
  · intro other lines others hlines hothers hpadded
    have hdata : dataLines other.toList = dataLines text.toList := by
      rw [dataLines_eq hlines, dataLines_eq hothers, hpadded.filter_eq]
    rw [ofText_eq, ofText_eq, hdata]

example : ofText "# note\nsha1: AB x\r\n\nsha1 ab" = .error (.tooFewValues 2) := by decide

end BillOfMaterials.Manifest
