import Mathlib.Tactic.MkIffOfInductiveProp
import BillOfMaterials.Proofs.Manifest.Acceptance
import BillOfMaterials.Proofs.Text.Case

/-! # Layouts of entries

    How entries can be written so that a manifest lists them again.

    * `IsValue` are the texts that are read as they are written, `Entry.IsListed` the
      entries whose parts are such texts.
    * `Spells` is a line with one entry, `IsIdle` one with none; `Layout` is a text of such
      lines.
    * `exists_values_of_spells` and `values_of_isIdle` say what is read of one line,
      `Layout.forall₂_isEntry` of all lines.
    * `ofText_layout`: every layout of entries is a manifest with just these entries. -/

namespace BillOfMaterials.Manifest

open Text

/-! ## Values -/

/-- A text that is read as it is written: not empty, without blanks, and no comment. -/
@[mk_iff] structure IsValue (value : List Char) : Prop where
  ne_nil : value ≠ []
  not_blank : ∀ c ∈ value, isBlank c = false
  not_comment : value.head? ≠ some '#'

instance (value : List Char) : Decidable (IsValue value) :=
  decidable_of_iff (value ≠ [] ∧ value.all (!isBlank ·) ∧ value.head? ≠ some '#')
    (by simp [isValue_iff])

theorem isBlank_of_isAlphanum {c : Char} (h : c.isAlphanum = true) : isBlank c = false := by
  have hbounds := bounds_of_isAlphanum h
  simp only [isBlank]
  grind

-- Letters are no blanks, so a change of case cannot make or spoil one.
theorem isBlank_toLower (c : Char) : isBlank c.toLower = isBlank c := by
  rcases toLower_eq_or c with hsame | ⟨hupper, hlower⟩
  · rw [hsame]
  · have hc : c.isAlphanum := isAlphanum_iff.2 (.inl (.inl hupper))
    have hsmall : c.toLower.isAlphanum := isAlphanum_iff.2 (.inl (.inr hlower))
    rw [isBlank_of_isAlphanum hc, isBlank_of_isAlphanum hsmall]

theorem toLower_eq_hash_iff (c : Char) : c.toLower = '#' ↔ c = '#' := by
  rcases toLower_eq_or c with hsame | ⟨hupper, hlower⟩
  · rw [hsame]
  · constructor
    · intro h
      rw [h] at hlower
      exact absurd hlower (by decide)
    · rintro rfl
      exact absurd hupper (by decide)

/-- Small letters make no value of what is none, and spoil none. -/
theorem isValue_map_toLower {value : List Char} :
    IsValue (value.map Char.toLower) ↔ IsValue value := by
  have hhead : (value.map Char.toLower).head? = some '#' ↔ value.head? = some '#' := by
    cases value <;> simp [toLower_eq_hash_iff]
  constructor
  · rintro ⟨hne, hblank, hcomment⟩
    exact ⟨by simpa using hne, by simpa [isBlank_toLower] using hblank, mt hhead.2 hcomment⟩
  · rintro ⟨hne, hblank, hcomment⟩
    exact ⟨by simpa using hne, by simpa [isBlank_toLower] using hblank, mt hhead.1 hcomment⟩

/-! ## Entries -/

/-- An entry that a line can hold: no part of it is cut, and its numbers and letters are
    those that are kept of a value. -/
@[mk_iff] structure Entry.IsListed (entry : Entry) : Prop where
  name_not_blank : ∀ c ∈ entry.algorithm.name.toList, isBlank c = false
  name_no_colon : ':' ∉ entry.algorithm.name.toList
  name_not_comment : entry.algorithm.name.toList.head? ≠ some '#'
  keyLength : ∀ length ∈ entry.algorithm.keyLength?, 1 ≤ length ∧ length ≤ 2 ^ 64 - 1
  digest : IsValue entry.digest.toList
  digest_small : ∀ c ∈ entry.digest.toList, c.isUpper = false
  asset : IsValue entry.asset.toList

instance (entry : Entry) : Decidable entry.IsListed :=
  decidable_of_iff (entry.algorithm.name.toList.all (!isBlank ·) ∧
    ':' ∉ entry.algorithm.name.toList ∧ entry.algorithm.name.toList.head? ≠ some '#' ∧
    (∀ length ∈ entry.algorithm.keyLength?, 1 ≤ length ∧ length ≤ 2 ^ 64 - 1) ∧
    IsValue entry.digest.toList ∧ entry.digest.toList.all (!·.isUpper) ∧
    IsValue entry.asset.toList) (by simp [Entry.isListed_iff])

/-- Neither name nor key length. -/
def Algorithm.unnamed : Algorithm := ⟨"", none⟩

theorem isKeyLength_repr {length : Nat} (hlow : 1 ≤ length) (hhigh : length ≤ 2 ^ 64 - 1) :
    IsKeyLength length.repr.toList length := by
  -- The library reads its own digits by a fold, which gives the same number.
  have hdecimal : decimal length.repr.toList = length := by
    have hread := ofDigitChars_eq_decimal length.repr.toList 0
    rw [Nat.toList_repr, Nat.ofDigitChars_toDigits (by decide) (by decide)] at hread
    simpa using hread.symm
  have hdigits : ∀ digit ∈ length.repr.toList, digit.isDigit := by
    rw [Nat.toList_repr]
    exact fun _ => Nat.isDigit_of_mem_toDigits (by decide) (by decide)
  have hne : length.repr.toList ≠ [] := by
    rw [Nat.toList_repr]
    exact Nat.toDigits_ne_nil
  have hmk := @IsKeyLength.mk [] length.repr.toList (.inl rfl) hne hdigits
  rw [hdecimal] at hmk
  exact hmk hlow hhigh

theorem toList_render_of_none {name : String} :
    (Algorithm.mk name none).render.toList = name.toList := rfl

theorem toList_render_of_some {name : String} {length : Nat} :
    (Algorithm.mk name (some length)).render.toList = name.toList ++ ':' :: length.repr.toList := by
  simp [Algorithm.render]

theorem render_eq_empty_iff {algorithm : Algorithm} :
    algorithm.render.toList = [] ↔ algorithm = .unnamed := by
  obtain ⟨name, _ | length⟩ := algorithm
  · simp [toList_render_of_none, Algorithm.unnamed]
  · simp [toList_render_of_some, Algorithm.unnamed]

section entry

variable {entry : Entry} (h : entry.IsListed)
include h

/-- The written form of an algorithm names it. -/
theorem Entry.IsListed.isAlgorithm : IsAlgorithm entry.algorithm.render.toList entry.algorithm := by
  obtain ⟨⟨name, keyLength?⟩, digest, asset⟩ := entry
  cases keyLength? with
  | none =>
    have hplain := IsAlgorithm.plain h.name_no_colon
    rwa [String.ofList_toList] at hplain
  | some length =>
    obtain ⟨hlow, hhigh⟩ := h.keyLength length rfl
    have hkeyed := IsAlgorithm.keyed h.name_no_colon (isKeyLength_repr hlow hhigh)
    rwa [String.ofList_toList, ← toList_render_of_some] at hkeyed

/-- The written form of an algorithm is read as it is, if there is anything to read. -/
theorem Entry.IsListed.isValue_algorithm (hnamed : entry.algorithm ≠ .unnamed) :
    IsValue entry.algorithm.render.toList := by
  have hne := mt render_eq_empty_iff.1 hnamed
  obtain ⟨⟨name, keyLength?⟩, digest, asset⟩ := entry
  cases keyLength? with
  | none => exact ⟨hne, h.name_not_blank, h.name_not_comment⟩
  | some length =>
    refine ⟨hne, ?_, ?_⟩
    · rw [toList_render_of_some]
      intro c hc
      rcases List.mem_append.1 hc with hname | hsuffix
      · exact h.name_not_blank c hname
      rcases List.mem_cons.1 hsuffix with rfl | hdigit
      · rfl
      · rw [Nat.toList_repr] at hdigit
        have hc := Nat.isDigit_of_mem_toDigits (by decide) (by decide) hdigit
        exact isBlank_of_isAlphanum (by simp [Char.isAlphanum, hc])
    · have hname : name.toList.head? ≠ some '#' := h.name_not_comment
      rw [toList_render_of_some]
      cases hcases : name.toList with
      | nil => simp
      | cons c rest => simpa [hcases] using hname

theorem Entry.IsListed.map_toLower_digest :
    entry.digest.toList.map Char.toLower = entry.digest.toList := by
  refine (List.map_congr_left fun c hc => ?_).trans (List.map_id _)
  exact toLower_of_not_isUpper (h.digest_small c hc)

end entry

/-! ## Lines -/

/-- Blanks within a line. -/
structure IsGap (gap : List Char) : Prop where
  blank : isAllBlank gap = true
  noLineFeed : '\n' ∉ gap

/-- A comment, or nothing. -/
inductive IsRemark : List Char → Prop where
  | none : IsRemark []
  | comment {text : List Char} : '\n' ∉ text → IsRemark ('#' :: text)

/-- A line without values. -/
inductive IsIdle : List Char → Prop where
  | mk {front remark : List Char} : IsGap front → IsRemark remark → IsIdle (front ++ remark)

/-- A line that writes an entry: the written form of its algorithm, its digest in letters
    of any size, and its asset, with blanks between them, and with blanks and a comment
    around them or none.  A comment stands after a blank. -/
inductive Spells (entry : Entry) : List Char → Prop where
  | mk {front first second back digest remark : List Char} : IsGap front →
      IsGap first → first ≠ [] → digest.map Char.toLower = entry.digest.toList.map Char.toLower →
      IsGap second → second ≠ [] → IsGap back → IsRemark remark → (remark ≠ [] → back ≠ []) →
      Spells entry (front ++ (entry.algorithm.render.toList ++ (first ++ (digest ++
        (second ++ (entry.asset.toList ++ (back ++ remark)))))))

theorem values_append_of_isGap {gap : List Char} (h : IsGap gap) (s : List Char) :
    values (gap ++ s) = values s := by
  rw [values, words_isAllBlank_append h.blank, ← values]

theorem values_of_isRemark {remark : List Char} (h : IsRemark remark) : values remark = [] := by
  cases h with
  | none => rfl
  | comment =>
    obtain ⟨word, ws, hwords⟩ := exists_words_cons (c := '#') rfl _
    rw [values, hwords]
    rfl

theorem values_of_isValue {value : List Char} (h : IsValue value) : values value = [value] := by
  rw [values, words_of_no_blank h.ne_nil h.not_blank]
  simp [h.not_comment]

/-- A value is read before the blanks that end it. -/
theorem values_append_of_isValue {value gap : List Char} (h : IsValue value) (hgap : IsGap gap)
    (hne : gap ≠ []) (s : List Char) : values (value ++ (gap ++ s)) = value :: values s := by
  obtain ⟨c, gap, rfl⟩ := List.exists_cons_of_ne_nil hne
  obtain ⟨hc, hblank⟩ := Bool.and_eq_true_iff.1 hgap.blank
  rw [values, List.cons_append, words_append_blank hc, words_isAllBlank_append hblank,
    words_of_no_blank h.ne_nil h.not_blank]
  simp [values, h.not_comment]

theorem values_of_isIdle {line : List Char} (h : IsIdle line) : values line = [] := by
  obtain ⟨hfront, hremark⟩ := h
  rw [values_append_of_isGap hfront, values_of_isRemark hremark]

theorem IsRemark.noLineFeed {remark : List Char} (h : IsRemark remark) : '\n' ∉ remark := by
  cases h with
  | none => exact List.not_mem_nil
  | comment htext => simpa using htext

theorem IsIdle.noLineFeed {line : List Char} (h : IsIdle line) : '\n' ∉ line := by
  obtain ⟨hfront, hremark⟩ := h
  simpa using ⟨hfront.noLineFeed, hremark.noLineFeed⟩

theorem IsValue.noLineFeed {value : List Char} (h : IsValue value) : '\n' ∉ value :=
  fun hmem => absurd (h.not_blank _ hmem) (by decide)

section spells

variable {entry : Entry} (hlisted : entry.IsListed) (hnamed : entry.algorithm ≠ .unnamed)
  {line : List Char} (h : Spells entry line)
include hlisted hnamed h

/-- The values of an entry's line. -/
theorem exists_values_of_spells : '\n' ∉ line ∧ ∃ digest,
    digest.map Char.toLower = entry.digest.toList ∧
    values line = [entry.algorithm.render.toList, digest, entry.asset.toList] := by
  have halgorithm := hlisted.isValue_algorithm hnamed
  obtain ⟨hfront, hfirst, hfirst', hdigest, hsecond, hsecond', hback, hremark, happart⟩ := h
  rename_i front first second back digest remark
  -- The digest may be in capital letters, but it is a value if the small one is.
  have hsmall : digest.map Char.toLower = entry.digest.toList :=
    hdigest.trans hlisted.map_toLower_digest
  have hvalue : IsValue digest := by
    rw [← isValue_map_toLower, hsmall]
    exact hlisted.digest
  have hlast : values (entry.asset.toList ++ (back ++ remark)) = [entry.asset.toList] := by
    by_cases hnil : back = []
    · -- A comment would have to stand after a blank.
      have hnone : remark = [] := by
        by_contra hne
        exact happart hne hnil
      rw [hnil, hnone, List.append_nil, List.append_nil, values_of_isValue hlisted.asset]
    · rw [values_append_of_isValue hlisted.asset hback hnil, values_of_isRemark hremark]
  refine ⟨?_, digest, hsmall, ?_⟩
  · simp [hfront.noLineFeed, halgorithm.noLineFeed, hfirst.noLineFeed, hvalue.noLineFeed,
      hsecond.noLineFeed, hlisted.asset.noLineFeed, hback.noLineFeed, hremark.noLineFeed]
  · rw [values_append_of_isGap hfront, values_append_of_isValue halgorithm hfirst hfirst',
      values_append_of_isValue hvalue hsecond hsecond', hlast]

end spells

/-! ## Texts -/

/-- The end of a line. -/
inductive IsLineEnd : List Char → Prop where
  | lineFeed : IsLineEnd ['\n']
  | carriageReturn : IsLineEnd ['\r', '\n']

/-- A text that writes entries in order, each on a line of its own, with lines without
    values in between.  The last line may be without an end. -/
inductive Layout : List Entry → List Char → Prop where
  | lastIdle {line : List Char} : IsIdle line → Layout [] line
  | lastEntry {entry : Entry} {line : List Char} : Spells entry line → Layout [entry] line
  | idle {line ending rest : List Char} {entries : List Entry} : IsIdle line → IsLineEnd ending →
      Layout entries rest → Layout entries (line ++ (ending ++ rest))
  | entry {entry : Entry} {line ending rest : List Char} {entries : List Entry} :
      Spells entry line → IsLineEnd ending → Layout entries rest →
      Layout (entry :: entries) (line ++ (ending ++ rest))

theorem dataLines_append_of_isLineEnd {line ending : List Char} (h : '\n' ∉ line)
    (hending : IsLineEnd ending) (rest : List Char) :
    dataLines (line ++ (ending ++ rest)) = dataLines line ++ dataLines rest := by
  rw [dataLines_line h]
  cases hending with
  | lineFeed => exact dataLines_append h rest
  | carriageReturn => exact dataLines_append_carriageReturn h rest

theorem dataLines_of_isIdle {line : List Char} (h : IsIdle line) : dataLines line = [] := by
  rw [dataLines_line h.noLineFeed, values_of_isIdle h]
  rfl

/-- Entries that can be written with a name or a key length. -/
def CanSpell (entries : List Entry) : Prop :=
  ∀ entry ∈ entries, entry.IsListed ∧ entry.algorithm ≠ .unnamed

theorem isEntry_of_spells {entry : Entry} {line : List Char} (hlisted : entry.IsListed)
    (hnamed : entry.algorithm ≠ .unnamed) (h : Spells entry line) :
    '\n' ∉ line ∧ ∃ values, dataLines line = [values] ∧ IsEntry values entry := by
  obtain ⟨hline, digest, hdigest, hvalues⟩ := exists_values_of_spells hlisted hnamed h
  refine ⟨hline, [entry.algorithm.render.toList, digest, entry.asset.toList], ?_, ?_⟩
  · rw [dataLines_line hline, hvalues]
    rfl
  · have hentry := @IsEntry.mk _ digest entry.asset.toList _ hlisted.isAlgorithm
    rwa [hdigest, String.ofList_toList, String.ofList_toList] at hentry

/-- Every line of a layout is read as it is meant. -/
theorem Layout.forall₂_isEntry {entries : List Entry} {text : List Char} (h : Layout entries text)
    (hentries : CanSpell entries) : List.Forall₂ IsEntry (dataLines text) entries := by
  induction h with
  | lastIdle hidle =>
    rw [dataLines_of_isIdle hidle]
    exact .nil
  | @lastEntry entry line hline =>
    obtain ⟨hlisted, hnamed⟩ := hentries entry List.mem_cons_self
    obtain ⟨-, values, hdata, hentry⟩ := isEntry_of_spells hlisted hnamed hline
    rw [hdata]
    exact .cons hentry .nil
  | idle hidle hending _ ih =>
    rw [dataLines_append_of_isLineEnd hidle.noLineFeed hending, dataLines_of_isIdle hidle]
    exact ih hentries
  | @entry entry line ending rest entries hline hending _ ih =>
    obtain ⟨hlisted, hnamed⟩ := hentries entry List.mem_cons_self
    obtain ⟨hline', values, hdata, hentry⟩ := isEntry_of_spells hlisted hnamed hline
    rw [dataLines_append_of_isLineEnd hline' hending, hdata]
    exact .cons hentry (ih fun other hother => hentries other (List.mem_cons_of_mem entry hother))

/-- **Layouts.** A text that writes entries in any layout is a manifest of just these
    entries: with any blanks between the values and around them, comments after them,
    lines without values in between, line feeds with carriage returns or without them, and
    capital letters in digests. -/
theorem ofText_layout (entries : List Entry) (hentries : CanSpell entries) (text : String)
    (h : Layout entries text.toList) : ofText text = .ok ⟨entries⟩ :=
  ofText_eq_ok_iff.2 (h.forall₂_isEntry hentries)

/-- Two entries among comments and blanks, with the greatest key length. -/
theorem ofText_layout_comments :
    let shake : Entry := ⟨⟨"shake128", some 18446744073709551615⟩, "ab#d", "a.tgz"⟩
    let sha1 : Entry := ⟨⟨"sha1", none⟩, "00", "b#.tgz"⟩
    let text := "# hashes\r\n\u2003\n" ++
      "\tshake128:18446744073709551615\u00a0AB#d \r a.tgz # x\r\nsha1 00 b#.tgz"
    CanSpell [shake, sha1] ∧ Layout [shake, sha1] text.toList ∧
      ofText text = .ok ⟨[shake, sha1]⟩ := by
  intro shake sha1 text
  have hshake : shake.IsListed := by decide
  have hsha1 : sha1.IsListed := by decide
  have hentries : CanSpell [shake, sha1] := by
    simpa [CanSpell] using ⟨⟨hshake, by decide⟩, hsha1, by decide⟩
  have hlayout : Layout [shake, sha1] text.toList := by
    have hspace : IsGap [' '] := ⟨by decide, by decide⟩
    have hnone : IsGap [] := ⟨by decide, by decide⟩
    have hcomment := @IsIdle.mk [] "# hashes".toList hnone (.comment (by decide))
    have hblank := @IsIdle.mk ['\u2003'] [] ⟨by decide, by decide⟩ .none
    have hfirst := @Spells.mk shake ['\t'] ['\u00a0'] [' ', '\r', ' '] [' '] "AB#d".toList
        "# x".toList ⟨by decide, by decide⟩ ⟨by decide, by decide⟩ (by decide) (by decide)
        ⟨by decide, by decide⟩ (by decide) hspace (.comment (by decide)) (by decide)
    have hsecond := @Spells.mk sha1 [] [' '] [' '] [] "00".toList [] hnone hspace (by decide)
        (by decide) hspace (by decide) hnone .none (by decide)
    have hlines := Layout.idle hcomment .carriageReturn (.idle hblank .lineFeed
      (.entry hfirst .carriageReturn (.lastEntry hsecond)))
    exact (congrArg (Layout [shake, sha1]) (by decide)).mpr hlines
  exact ⟨hentries, hlayout, ofText_layout _ hentries text hlayout⟩

end BillOfMaterials.Manifest
