import Mathlib.Data.List.TakeWhile
import BillOfMaterials.Proofs.Manifest.Layout

/-! # Manifests written again

    What is listed by a manifest that was read, and what becomes of it when its entries
    are written in the form that reports show.

    * `isListed_of_ofText`: the parts of an entry that was read are values, its name has no
      colon, and its key length is within bounds.
    * `dataLines_written`: each line that is written holds its entry's values.
    * `ofText_written`: the written form is read as the same manifest, but for entries whose
      algorithm was a lone colon.  Of these nothing is written that could be read. -/

namespace BillOfMaterials.Manifest

open Text

/-- The entries of a manifest, a line for each. -/
def written (manifest : Manifest) : String :=
  String.join (manifest.entries.map fun entry => entry.render ++ "\n")

/-! ## What was read -/

theorem isValue_of_mem_values {line value : List Char} (h : value ∈ values line) :
    IsValue value := by
  have hword : value ∈ words line := (List.takeWhile_prefix _).subset h
  obtain ⟨hpiece, hne⟩ := List.mem_filter.1 hword
  refine ⟨by simpa using hne, not_sep_of_mem_pieces value hpiece, ?_⟩
  simpa using List.mem_takeWhile_imp h

theorem isValue_of_mem_dataLines {text value : List Char} {line : List (List Char)}
    (hline : line ∈ dataLines text) (h : value ∈ line) : IsValue value := by
  obtain ⟨piece, -, rfl⟩ := List.mem_map.1 (List.mem_filter.1 hline).1
  exact isValue_of_mem_values h

/-- The name is the value's beginning, and the key length is within bounds. -/
theorem IsAlgorithm.parts {value : List Char} {algorithm : Algorithm}
    (h : IsAlgorithm value algorithm) :
    algorithm.name.toList <+: value ∧ ':' ∉ algorithm.name.toList ∧
      ∀ length ∈ algorithm.keyLength?, 1 ≤ length ∧ length ≤ 2 ^ 64 - 1 := by
  cases h with
  | plain hname => exact ⟨by simp, by simpa using hname, nofun⟩
  | empty hname => exact ⟨by simp, by simpa using hname, nofun⟩
  | keyed hname hlength =>
    refine ⟨by simp, by simpa using hname, ?_⟩
    rintro _ ⟨⟩
    obtain ⟨-, -, -, hlow, hhigh⟩ := hlength
    exact ⟨hlow, hhigh⟩

/-- Of a lone colon neither a name nor a key length is read. -/
theorem IsAlgorithm.eq_unnamed_iff {value : List Char} {algorithm : Algorithm}
    (h : IsAlgorithm value algorithm) (hne : value ≠ []) :
    algorithm = .unnamed ↔ value = [':'] := by
  cases h with
  | plain hname =>
    refine iff_of_false (by simpa [Algorithm.unnamed] using hne) ?_
    rintro rfl
    exact hname List.mem_cons_self
  | empty hname => simp [Algorithm.unnamed]
  | @keyed name suffix length hname hlength =>
    refine iff_of_false (by simp [Algorithm.unnamed]) ?_
    intro hvalue
    -- With the colon, the name and the key length would be more than one character.
    have hlong : 0 < suffix.length := List.length_pos_of_ne_nil hlength.ne_nil
    have hcount := congrArg List.length hvalue
    simp at hcount
    omega

/-- An entry that was read can be listed. -/
theorem isListed_of_isEntry {values : List (List Char)} {entry : Entry} (h : IsEntry values entry)
    (hvalues : ∀ value ∈ values, IsValue value) :
    entry.IsListed ∧ (entry.algorithm = .unnamed ↔ values.head? = some [':']) := by
  obtain ⟨halgorithm⟩ := h
  rename_i value digest asset algorithm
  obtain ⟨hvalue, hdigest, hasset⟩ : IsValue value ∧ IsValue digest ∧ IsValue asset := by
    simpa using hvalues
  obtain ⟨hfront, hcolon, hlength⟩ := halgorithm.parts
  refine ⟨⟨fun c hc => hvalue.not_blank c (hfront.subset hc), hcolon, ?_, hlength, ?_, ?_, ?_⟩, ?_⟩
  · intro hhead
    obtain ⟨rest, rfl⟩ := hfront
    obtain ⟨tail, hname⟩ := List.head?_eq_some_iff.1 hhead
    exact hvalue.not_comment (by rw [hname]; rfl)
  · simpa using isValue_map_toLower.2 hdigest
  · intro c hc
    rw [String.toList_ofList] at hc
    obtain ⟨d, -, rfl⟩ := List.mem_map.1 hc
    exact isUpper_toLower d
  · simpa using hasset
  · simpa using halgorithm.eq_unnamed_iff hvalue.ne_nil

theorem isListed_of_forall₂ {data : List (List (List Char))} {entries : List Entry}
    (h : List.Forall₂ IsEntry data entries)
    (hdata : ∀ values ∈ data, ∀ value ∈ values, IsValue value) :
    (∀ entry ∈ entries, entry.IsListed) ∧
      ((∀ entry ∈ entries, entry.algorithm ≠ .unnamed) ↔
        ∀ values ∈ data, values.head? ≠ some [':']) := by
  induction h with
  | nil => simp
  | cons hentry _ ih =>
    obtain ⟨hvalues, hrest⟩ := List.forall_mem_cons.1 hdata
    obtain ⟨hlisted, hunnamed⟩ := isListed_of_isEntry hentry hvalues
    obtain ⟨hothers, hiff⟩ := ih hrest
    exact ⟨List.forall_mem_cons.2 ⟨hlisted, hothers⟩, by
      rw [List.forall_mem_cons, List.forall_mem_cons, hiff, Ne, hunnamed]⟩

/-- What a manifest lists, if it was read. -/
theorem isListed_of_ofText {text : String} {manifest : Manifest}
    (h : ofText text = .ok manifest) : ∀ entry ∈ manifest.entries, entry.IsListed :=
  (isListed_of_forall₂ (ofText_eq_ok_iff.1 h) fun _ hline _ => isValue_of_mem_dataLines hline).1

/-! ## What is written -/

theorem toList_written (entries : List Entry) :
    (written ⟨entries⟩).toList = entries.flatMap fun entry => entry.render.toList ++ ['\n'] := by
  simp [written, List.flatMap_map]

section entry

variable {entry : Entry} (h : entry.IsListed)
include h

theorem Entry.IsListed.noLineFeed : '\n' ∉ entry.render.toList := by
  have halgorithm : '\n' ∉ entry.algorithm.render.toList := by
    by_cases hunnamed : entry.algorithm = .unnamed
    · rw [render_eq_empty_iff.2 hunnamed]
      exact List.not_mem_nil
    · exact (h.isValue_algorithm hunnamed).noLineFeed
  simp [Entry.render, halgorithm, h.digest.noLineFeed, h.asset.noLineFeed]

/-- Without name and key length, only two values are left. -/
theorem Entry.IsListed.values_render : values entry.render.toList =
    if entry.algorithm = .unnamed then [entry.digest.toList, entry.asset.toList]
    else [entry.algorithm.render.toList, entry.digest.toList, entry.asset.toList] := by
  have hspace : IsGap [' '] := ⟨by decide, by decide⟩
  have hrest : values (entry.digest.toList ++ ([' '] ++ entry.asset.toList)) =
      [entry.digest.toList, entry.asset.toList] := by
    rw [values_append_of_isValue h.digest hspace (by decide), values_of_isValue h.asset]
  have hline : entry.render.toList = entry.algorithm.render.toList ++
      ([' '] ++ (entry.digest.toList ++ ([' '] ++ entry.asset.toList))) := by
    simp [Entry.render]
  rw [hline]
  split
  · next hunnamed =>
    rw [render_eq_empty_iff.2 hunnamed, List.nil_append, values_append_of_isGap hspace, hrest]
  · next hnamed =>
    rw [values_append_of_isValue (h.isValue_algorithm hnamed) hspace (by decide), hrest]

/-- The written form of an entry is read as it was meant, unless it is unnamed. -/
theorem Entry.IsListed.isEntry_values_iff :
    IsEntry (values entry.render.toList) entry ↔ entry.algorithm ≠ .unnamed := by
  rw [h.values_render]
  constructor
  · intro hentry hunnamed
    rw [if_pos hunnamed] at hentry
    cases hentry
  · intro hnamed
    have hentry := @IsEntry.mk _ entry.digest.toList entry.asset.toList _ h.isAlgorithm
    rw [if_neg hnamed]
    rwa [h.map_toLower_digest, String.ofList_toList, String.ofList_toList] at hentry

theorem Entry.IsListed.isFault_values (hunnamed : entry.algorithm = .unnamed) (n : Nat) :
    IsFault n (values entry.render.toList) (.tooFewValues n) := by
  rw [h.values_render, if_pos hunnamed]
  exact .tooFewValues (Nat.lt_succ_self 2)

end entry

theorem dataLines_written {entries : List Entry} (h : ∀ entry ∈ entries, entry.IsListed) :
    dataLines (written ⟨entries⟩).toList = entries.map fun entry => values entry.render.toList := by
  rw [toList_written]
  induction entries with
  | nil => rfl
  | cons entry entries ih =>
    obtain ⟨hlisted, hrest⟩ := List.forall_mem_cons.1 h
    have hfilled : (values entry.render.toList).isEmpty = false := by
      rw [hlisted.values_render]
      split <;> rfl
    rw [List.flatMap_cons, List.append_assoc, List.singleton_append,
      dataLines_append hlisted.noLineFeed, ih hrest]
    simp [hfilled]

/-- **Writing again.** What was read from a text is read again from its written form, just
    when no algorithm in the text is a lone colon.  Else the first line of such an entry
    has too few values. -/
theorem ofText_written (text : String) (manifest : Manifest) (h : ofText text = .ok manifest) :
    (ofText manifest.written = .ok manifest ↔
      ∀ entry ∈ manifest.entries, entry.algorithm ≠ .unnamed) ∧
    ((∀ entry ∈ manifest.entries, entry.algorithm ≠ .unnamed) ↔
      ∀ data, HoldsData text.toList data → ∀ values ∈ data, values.head? ≠ some [':']) ∧
    ∀ before entry after, manifest.entries = before ++ entry :: after →
      (∀ earlier ∈ before, earlier.algorithm ≠ .unnamed) → entry.algorithm = .unnamed →
      ofText manifest.written = .error (.tooFewValues (before.length + 1)) := by
  obtain ⟨hlisted, hcolon⟩ :=
    isListed_of_forall₂ (ofText_eq_ok_iff.1 h) fun _ hline _ => isValue_of_mem_dataLines hline
  obtain ⟨entries⟩ := manifest
  have hdata := dataLines_written hlisted
  refine ⟨?_, ?_, ?_⟩
  · rw [ofText_eq_ok_iff, hdata, List.forall₂_map_left_iff, List.forall₂_same]
    exact forall₂_congr fun entry hentry => (hlisted entry hentry).isEntry_values_iff
  · simpa [holdsData_iff] using hcolon
  · rintro before entry after rfl hbefore hunnamed
    rw [List.map_append, List.map_cons] at hdata
    refine ofText_eq_error_iff.2 (readEntries_eq_error_iff.2 ⟨_, _, _, hdata, ?_, ?_⟩)
    · intro values hvalues
      obtain ⟨earlier, hmem, rfl⟩ := List.mem_map.1 hvalues
      have hearlier := hlisted earlier (List.mem_append_left _ hmem)
      exact ⟨earlier, hearlier.isEntry_values_iff.2 (hbefore earlier hmem)⟩
    · rw [List.length_map, Nat.add_comm]
      exact (hlisted entry (by simp)).isFault_values hunnamed _

/-- A key length without a name, and a name without the key length that its colon asks for. -/
theorem ofText_written_colons :
    let text := ":+07 AB x\r\n\u2003md5: c# y # note\n"
    let manifest : Manifest := ⟨[⟨⟨"", some 7⟩, "ab", "x"⟩, ⟨⟨"md5", none⟩, "c#", "y"⟩]⟩
    ofText text = .ok manifest ∧ manifest.written = ":7 ab x\nmd5 c# y\n" ∧
      ofText manifest.written = .ok manifest := by
  intro text manifest
  have hread : ofText text = .ok manifest := by decide
  have hnamed : ∀ entry ∈ manifest.entries, entry.algorithm ≠ .unnamed := by decide
  exact ⟨hread, by decide, (ofText_written text manifest hread).1.2 hnamed⟩

/-- An algorithm that is a lone colon is read, but its entry is not read again. -/
theorem ofText_lone_colon :
    let manifest : Manifest := ⟨[⟨.unnamed, "abcd", "a.tgz"⟩]⟩
    ofText ": abcd a.tgz\n" = .ok manifest ∧ manifest.written = " abcd a.tgz\n" ∧
      ofText manifest.written = .error (.tooFewValues 1) := by
  decide

end BillOfMaterials.Manifest
