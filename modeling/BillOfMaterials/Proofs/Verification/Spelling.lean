import BillOfMaterials.Proofs.Text.Case
import BillOfMaterials.Proofs.Verification.Directory

/-! # How the names of algorithms are spelled

    An algorithm is found by its name in any case, but two entries list the same
    algorithm only if they spell it alike.  So the case of names does matter: it tells
    which entries are alternatives of one another.

    * `Respelling` is an entry with another spelling of its algorithm's name.
    * `KeepsTogether` and `KeepsApart` say that entries for one asset are spelled alike
      afterwards if they were before, and only if.
    * `passes_respelled`: a file that passes still passes when alternatives are kept
      together.
    * `verify_respelled`: then what succeeds still succeeds, and both manifests give the
      same answers when only alternatives are put together.
    * `verify_capitals_apart`: alternatives that are not kept together are lost. -/

namespace BillOfMaterials.Verification

/-! ## Spellings -/

/-- A name is recognised by its letters. -/
theorem resolve_of_lowered_eq {name other : String} (h : Text.lowered name = Text.lowered other)
    (keyLength? : Option Nat) :
    DigestKind.resolve name keyLength? = DigestKind.resolve other keyLength? := by
  unfold DigestKind.resolve
  rw [h]

/-- An entry, and a name for its algorithm with the same letters in any case. -/
structure Respelling where
  entry : Manifest.Entry
  name : String
  sameLetters : Text.lowered name = Text.lowered entry.algorithm.name

namespace Respelling

/-- The entry with the new name. -/
def respelled (r : Respelling) : Manifest.Entry :=
  { r.entry with algorithm := { r.entry.algorithm with name := r.name } }

/-- The change back. -/
def undo (r : Respelling) : Respelling where
  entry := r.respelled
  name := r.entry.algorithm.name
  sameLetters := r.sameLetters.symm

@[simp] theorem asset_respelled (r : Respelling) : r.respelled.asset = r.entry.asset := rfl

@[simp] theorem entry_undo (r : Respelling) : r.undo.entry = r.respelled := rfl

@[simp] theorem respelled_undo (r : Respelling) : r.undo.respelled = r.entry := rfl

theorem resolve_respelled (r : Respelling) :
    DigestKind.resolve r.respelled.algorithm.name r.respelled.algorithm.keyLength? =
      DigestKind.resolve r.entry.algorithm.name r.entry.algorithm.keyLength? :=
  resolve_of_lowered_eq r.sameLetters _

end Respelling

/-- The manifest with the names as they were. -/
def spelled (changes : List Respelling) : Manifest := ⟨changes.map Respelling.entry⟩

/-- The manifest with the new names. -/
def respelled (changes : List Respelling) : Manifest := ⟨changes.map Respelling.respelled⟩

/-- Entries for one asset that were spelled alike are spelled alike still. -/
def KeepsTogether (changes : List Respelling) : Prop :=
  ∀ r ∈ changes, ∀ q ∈ changes, r.entry.asset = q.entry.asset →
    r.entry.algorithm = q.entry.algorithm → r.respelled.algorithm = q.respelled.algorithm

/-- Entries for one asset that are spelled alike now were spelled alike before. -/
def KeepsApart (changes : List Respelling) : Prop :=
  ∀ r ∈ changes, ∀ q ∈ changes, r.entry.asset = q.entry.asset →
    r.respelled.algorithm = q.respelled.algorithm → r.entry.algorithm = q.entry.algorithm

instance (changes : List Respelling) : Decidable (KeepsTogether changes) :=
  inferInstanceAs (Decidable (∀ r ∈ changes, ∀ q ∈ changes, _ → _ → _))

instance (changes : List Respelling) : Decidable (KeepsApart changes) :=
  inferInstanceAs (Decidable (∀ r ∈ changes, ∀ q ∈ changes, _ → _ → _))

/-- The change that writes all names in small letters. -/
def inSmallLetters (manifest : Manifest) : List Respelling :=
  manifest.entries.map fun e =>
    { entry := e, name := Text.lowered e.algorithm.name, sameLetters := Text.lowered_lowered _ }

theorem spelled_inSmallLetters (manifest : Manifest) :
    spelled (inSmallLetters manifest) = manifest := by
  simp [spelled, inSmallLetters, Function.comp_def]

/-- Names that are the same are the same in small letters. -/
theorem keepsTogether_inSmallLetters (manifest : Manifest) :
    KeepsTogether (inSmallLetters manifest) := by
  intro r hr q hq _ halgorithm
  obtain ⟨e, -, rfl⟩ := List.mem_map.1 hr
  obtain ⟨f, -, rfl⟩ := List.mem_map.1 hq
  have hsame : e.algorithm = f.algorithm := halgorithm
  simp [Respelling.respelled, hsame]

section spelling

variable {changes : List Respelling} {asset : String}

/-- The entries for an asset, before or after the change. -/
theorem mem_entriesFor_map (f : Respelling → Manifest.Entry)
    (hf : ∀ r, (f r).asset = r.entry.asset) {e : Manifest.Entry} :
    e ∈ (Manifest.mk (changes.map f)).entriesFor asset ↔
      ∃ r ∈ changes, r.entry.asset = asset ∧ f r = e := by
  rw [mem_entriesFor, List.mem_map]
  constructor
  · rintro ⟨⟨r, hr, rfl⟩, hasset⟩
    exact ⟨r, hr, (hf r).symm.trans hasset, rfl⟩
  · rintro ⟨r, hr, hasset, rfl⟩
    exact ⟨⟨r, hr, rfl⟩, (hf r).trans hasset⟩

/-- Taking all changes back changes the roles of the two manifests. -/
theorem spelled_undo : spelled (changes.map Respelling.undo) = respelled changes := by
  simp [spelled, respelled]

theorem respelled_undo : respelled (changes.map Respelling.undo) = spelled changes := by
  simp [spelled, respelled]

theorem KeepsApart.undo (h : KeepsApart changes) :
    KeepsTogether (changes.map Respelling.undo) := by
  simpa [KeepsTogether, KeepsApart] using h

/-! ## Verdicts -/

/-- The digest that confirms an algorithm is listed for it still. -/
theorem confirmed_respelled (h : KeepsTogether changes) {r : Respelling} (hr : r ∈ changes)
    {bytes : List UInt8}
    (hconfirmed : Confirmed ((spelled changes).entriesFor r.entry.asset) bytes r.entry.algorithm) :
    Confirmed ((respelled changes).entriesFor r.entry.asset) bytes r.respelled.algorithm := by
  obtain ⟨kind, hkind, e, he, halgorithm, hdigest⟩ := hconfirmed
  obtain ⟨q, hq, hasset, rfl⟩ := (mem_entriesFor_map Respelling.entry fun _ => rfl).1 he
  have hsame : r.respelled.algorithm = q.respelled.algorithm :=
    h r hr q hq hasset.symm halgorithm.symm
  have hlisted : q.respelled ∈ (respelled changes).entriesFor r.entry.asset :=
    (mem_entriesFor_map Respelling.respelled fun _ => rfl).2 ⟨q, hq, hasset, rfl⟩
  exact ⟨kind, r.resolve_respelled.trans hkind, q.respelled, hlisted, hsame.symm, hdigest⟩

/-- A file that passes still passes when alternatives are kept together. -/
theorem passes_respelled {reader other : Reader} {path : Path} (h : KeepsTogether changes)
    (hread : other.asset path = reader.asset path)
    (hpasses : Passes reader (spelled changes) asset path) :
    Passes other (respelled changes) asset path := by
  obtain ⟨⟨e, he, hasset⟩, bytes, hbytes, hconfirmed⟩ := hpasses
  refine ⟨?_, bytes, hread.trans hbytes, ?_⟩
  · obtain ⟨r, hr, rfl⟩ := List.mem_map.1 he
    exact ⟨r.respelled, List.mem_map_of_mem hr, hasset⟩
  · intro e' he' hasset'
    obtain ⟨r, hr, rfl⟩ := List.mem_map.1 he'
    obtain rfl : r.entry.asset = asset := hasset'
    exact confirmed_respelled h hr (hconfirmed r.entry (List.mem_map_of_mem hr) rfl)

variable {reader other : Reader} {manifestPath : Path}

theorem verify_of_keepsTogether (h : KeepsTogether changes)
    (hspelled : reader.manifest manifestPath = .ok (spelled changes))
    (hrespelled : other.manifest manifestPath = .ok (respelled changes))
    (hfiles : other.asset = reader.asset) {assets : List Path}
    (hok : verify reader manifestPath assets = .ok ()) :
    verify other manifestPath assets = .ok () := by
  rw [verify_of_ok hspelled, checkAll_eq_ok_iff] at hok
  rw [verify_of_ok hrespelled, checkAll_eq_ok_iff]
  intro path hpath
  have hpasses := verifyAsset_eq_ok_iff.1 (hok path hpath)
  exact verifyAsset_eq_ok_iff.2 (passes_respelled h (congrFun hfiles path) hpasses)

theorem verifyDirectory_of_keepsTogether (h : KeepsTogether changes)
    (hspelled : reader.manifest manifestPath = .ok (spelled changes))
    (hrespelled : other.manifest manifestPath = .ok (respelled changes))
    (hfiles : other.asset = reader.asset) {directory : Path}
    (hok : verifyDirectory reader manifestPath directory = .ok ()) :
    verifyDirectory other manifestPath directory = .ok () := by
  rw [verifyDirectory_eq_ok_iff hspelled] at hok
  rw [verifyDirectory_eq_ok_iff hrespelled]
  intro e he
  obtain ⟨r, hr, rfl⟩ := List.mem_map.1 he
  -- The new name lists the same asset, so it leads to the same file.
  have hpasses := hok r.entry (List.mem_map_of_mem hr)
  exact passes_respelled h (congrFun hfiles _) hpasses

end spelling

/-- **Spellings.** Let two readers have the same files, and manifests that differ in the
    case of algorithms' names.  If entries for one asset that were spelled alike are
    spelled alike still, what succeeded still succeeds; if besides only these are, both
    readers give success in the same cases.  Small letters throughout are a change of
    the first kind: no check succeeds that would fail if entries whose names differ in
    case only were alternatives. -/
theorem verify_respelled (reader other : Reader) (manifestPath : Path)
    (changes : List Respelling) (hspelled : reader.manifest manifestPath = .ok (spelled changes))
    (hrespelled : other.manifest manifestPath = .ok (respelled changes))
    (hfiles : other.asset = reader.asset) (assets : List Path) (directory : Path) :
    (KeepsTogether changes →
      (verify reader manifestPath assets = .ok () → verify other manifestPath assets = .ok ()) ∧
      (verifyDirectory reader manifestPath directory = .ok () →
        verifyDirectory other manifestPath directory = .ok ())) ∧
    (KeepsTogether changes → KeepsApart changes →
      (verify reader manifestPath assets = .ok () ↔ verify other manifestPath assets = .ok ()) ∧
      (verifyDirectory reader manifestPath directory = .ok () ↔
        verifyDirectory other manifestPath directory = .ok ())) ∧
    ∀ manifest, spelled (inSmallLetters manifest) = manifest ∧
      KeepsTogether (inSmallLetters manifest) := by
  have hforth : KeepsTogether changes →
      (verify reader manifestPath assets = .ok () → verify other manifestPath assets = .ok ()) ∧
      (verifyDirectory reader manifestPath directory = .ok () →
        verifyDirectory other manifestPath directory = .ok ()) := fun htogether =>
    ⟨verify_of_keepsTogether htogether hspelled hrespelled hfiles,
      verifyDirectory_of_keepsTogether htogether hspelled hrespelled hfiles⟩
  refine ⟨hforth, fun htogether hapart => ?_,
    fun manifest => ⟨spelled_inSmallLetters manifest, keepsTogether_inSmallLetters manifest⟩⟩
  -- The other way round, the changes are taken back.
  rw [← respelled_undo] at hspelled
  rw [← spelled_undo] at hrespelled
  obtain ⟨hverify, hdirectory⟩ := hforth htogether
  exact ⟨⟨hverify, verify_of_keepsTogether hapart.undo hrespelled hspelled hfiles.symm⟩,
    hdirectory, verifyDirectory_of_keepsTogether hapart.undo hrespelled hspelled hfiles.symm⟩

/-! ## Two alternatives -/

/-- An entry with a wrong digest for `abc.txt`. -/
def wrongEntry (algorithm : String) : Manifest.Entry :=
  ⟨⟨algorithm, none⟩, "0000000000000000000000000000000000000000", "abc.txt"⟩

/-- A right digest and a wrong one are alternatives before and after their algorithm is
    written in capitals; what is listed for another asset may be spelled differently. -/
theorem verify_respelled_capitals :
    let changes : List Respelling :=
      [⟨abcEntry "abc.txt", "SHA1", by decide⟩, ⟨wrongEntry "sha1", "SHA1", by decide⟩,
        ⟨abcEntry "b.txt", "Sha1", by decide⟩]
    let files : List (Path × List UInt8) := [(⟨"dl/abc.txt"⟩, abcBytes), (⟨"dl/b.txt"⟩, abcBytes)]
    let assets : List Path := [⟨"dl/b.txt"⟩, ⟨"dl/abc.txt"⟩]
    KeepsTogether changes ∧ KeepsApart changes ∧
      verify (filesReader (spelled changes) files) ⟨"pkg.hash"⟩ assets = .ok () ∧
      verify (filesReader (respelled changes) files) ⟨"pkg.hash"⟩ assets = .ok () := by
  intro changes files assets
  have htogether : KeepsTogether changes := by decide
  have hapart : KeepsApart changes := by decide
  have hok : verify (filesReader (spelled changes) files) ⟨"pkg.hash"⟩ assets = .ok () := by
    have hpasses : ∀ name path, (filesReader (spelled changes) files).asset path = .ok abcBytes →
        abcEntry name ∈ (spelled changes).entries →
        Passes (filesReader (spelled changes) files) (spelled changes) name path := by
      intro name path hread hlisted
      exact passes_of_abcEntry hread hlisted (by simp [spelled, changes, abcEntry, wrongEntry])
    rw [verify_of_ok rfl, checkAll_eq_ok_iff]
    simp only [assets, List.mem_cons, List.not_mem_nil, or_false, forall_eq_or_imp, forall_eq,
      verifyAsset_eq_ok_iff]
    exact ⟨hpasses "b.txt" _ rfl (by simp [spelled, changes]),
      hpasses "abc.txt" _ rfl (by simp [spelled, changes])⟩
  have hsame := verify_respelled (filesReader (spelled changes) files)
    (filesReader (respelled changes) files) ⟨"pkg.hash"⟩ changes rfl rfl rfl assets ⟨"dl"⟩
  exact ⟨htogether, hapart, hok, (hsame.2.1 htogether hapart).1.1 hok⟩

/-- With one of the two names in capitals, the wrong digest has no alternative left. -/
theorem verify_capitals_apart :
    let alike : Manifest := ⟨[abcEntry "abc.txt", wrongEntry "sha1"]⟩
    let apart : Manifest := ⟨[abcEntry "abc.txt", wrongEntry "SHA1"]⟩
    let files : List (Path × List UInt8) := [(⟨"dl/abc.txt"⟩, abcBytes)]
    let error : VerifyError := .mismatch "abc.txt" "SHA1"
      "0000000000000000000000000000000000000000" "a9993e364706816aba3e25717850c26c9cd0d89d"
    Text.lowered "SHA1" = Text.lowered "sha1" ∧
      verify (filesReader alike files) ⟨"pkg.hash"⟩ [⟨"dl/abc.txt"⟩] = .ok () ∧
      verifyDirectory (filesReader alike files) ⟨"pkg.hash"⟩ ⟨"dl"⟩ = .ok () ∧
      verify (filesReader apart files) ⟨"pkg.hash"⟩ [⟨"dl/abc.txt"⟩] = .error error ∧
      verifyDirectory (filesReader apart files) ⟨"pkg.hash"⟩ ⟨"dl"⟩ = .error error := by
  intro alike apart files error
  have hpasses : Passes (filesReader alike files) alike "abc.txt" ⟨"dl/abc.txt"⟩ :=
    passes_of_abcEntry rfl (by simp [alike]) (by simp [alike, abcEntry, wrongEntry])
  have hfails : verifyAsset (filesReader apart files) apart ⟨"dl/abc.txt"⟩ = .error error := by
    have hkind : DigestKind.resolve "SHA1" none = some .sha1 := by decide
    have hentries : apart.entriesFor "abc.txt" = [abcEntry "abc.txt"] ++ wrongEntry "SHA1" :: [] :=
      rfl
    have hrefuted : Refuted "abc.txt" (apart.entriesFor "abc.txt") abcBytes ⟨"SHA1", none⟩
        (.mismatch "abc.txt" "SHA1" "0000000000000000000000000000000000000000"
          (DigestKind.sha1.compute abcBytes)) := by
      refine .mismatch hkind ?_
      rw [← compute_abcBytes "abc.txt"]
      decide
    rw [← compute_abcBytes "abc.txt"] at hrefuted
    refine verifyAsset_eq_error_iff.2 (.algorithm rfl hentries ?_ hrefuted)
    intro e he
    obtain rfl : e = abcEntry "abc.txt" := by simpa using he
    have hlisted : abcEntry "abc.txt" ∈ apart.entriesFor "abc.txt" := by simp [hentries]
    exact confirmed_abc hlisted
  refine ⟨by decide, ?_, ?_, ?_, ?_⟩
  · rw [verify_of_ok rfl, checkAll_eq_ok_iff]
    simpa using verifyAsset_eq_ok_iff.2 hpasses
  · rw [verifyDirectory_eq_ok_iff rfl]
    simpa [alike] using ⟨hpasses, hpasses⟩
  · rw [verify_of_ok rfl, checkAll_cons_of_error hfails]
  · rw [verifyDirectory_of_ok rfl, checkAll_eq_error_iff]
    exact ⟨[], abcEntry "abc.txt", [wrongEntry "SHA1"], rfl, by simp, hfails⟩

end BillOfMaterials.Verification
