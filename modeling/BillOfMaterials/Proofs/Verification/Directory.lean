import BillOfMaterials.Proofs.Path.Joining
import BillOfMaterials.Proofs.Verification.Verdict

/-! # Which files a directory check reads

    A directory check goes through the names that a manifest lists and joins
    each to the directory.  The file at the joined path is then looked up again,
    by the path's last component alone.  So a name is checked under its own
    entries only if it is its own last component, and it leads wherever joining
    leads.

    * `verifyDirectory_of_ok` turns a directory check into one row of checks.
    * `verifyDirectory_plain`: the hashes listed for plain names are checked.
    * `verifyDirectory_confined`: if every listed name leads inside the
      directory, no file outside matters. -/

namespace BillOfMaterials.Verification

open BillOfMaterials.Path

/-! ## The row of checks -/

section directory

variable {reader other : Reader} {manifestPath directory : Path} {manifest : Manifest}

theorem verifyDirectory_of_error {cause : Manifest.LoadError}
    (h : reader.manifest manifestPath = .error cause) :
    verifyDirectory reader manifestPath directory = .error (.manifest cause) := by
  simp only [verifyDirectory, load, h]
  rfl

/-- The entries are gone through in order, as if no name were listed twice. -/
theorem verifyDirectory_of_ok (h : reader.manifest manifestPath = .ok manifest) :
    verifyDirectory reader manifestPath directory =
      checkAll (fun e => verifyAsset reader manifest (directory.join ⟨e.asset⟩))
        manifest.entries := by
  have hrow : verifyDirectory reader manifestPath directory =
      checkAll (verifyAsset reader manifest)
        ((listedAssets manifest).map fun asset => directory.join ⟨asset⟩) := by
    simp only [verifyDirectory, load, h]
    rfl
  rw [hrow, checkAll_map, listedAssets, checkAll_eraseDups, checkAll_map]

/-- The file that an entry's name leads to is checked under its last component. -/
theorem verifyDirectory_eq_ok_iff (h : reader.manifest manifestPath = .ok manifest) :
    verifyDirectory reader manifestPath directory = .ok () ↔
      ∀ e ∈ manifest.entries, Passes reader manifest
        (assetName (directory.join ⟨e.asset⟩)) (directory.join ⟨e.asset⟩) := by
  rw [verifyDirectory_of_ok h, checkAll_eq_ok_iff]
  simp only [verifyAsset_eq_ok_iff]

/-- A directory check reads the files that the listed names lead to, where
    something is listed for the last component, and no other. -/
theorem verifyDirectory_congr (h : reader.manifest manifestPath = .ok manifest)
    (hother : other.manifest manifestPath = .ok manifest)
    (hread : ∀ e ∈ manifest.entries,
      manifest.entriesFor (assetName (directory.join ⟨e.asset⟩)) ≠ [] →
        reader.asset (directory.join ⟨e.asset⟩) = other.asset (directory.join ⟨e.asset⟩)) :
    verifyDirectory reader manifestPath directory =
      verifyDirectory other manifestPath directory := by
  rw [verifyDirectory_of_ok h, verifyDirectory_of_ok hother]
  apply checkAll_congr
  intro e he
  exact verifyAsset_congr rfl (hread e he)

/-- A name is looked up as itself just when it is plain. -/
theorem assetName_join_eq_iff {name : String} (hne : name ≠ "") :
    assetName (directory.join ⟨name⟩) = name ↔ IsPlainName name := by
  constructor
  · intro h
    unfold assetName at h
    cases hname : (directory.join ⟨name⟩).fileName? with
    | none =>
      rw [hname] at h
      exact absurd h.symm hne
    | some last =>
      rw [hname] at h
      obtain rfl : last = name := h
      exact isPlainName_of_fileName? hname
  · intro h
    rw [assetName, fileName?_join h]
    rfl

end directory

/-- A reader of one manifest and of files that are found by path. -/
def filesReader (manifest : Manifest) (files : List (Path × List UInt8)) : Reader where
  manifest := fun _ => .ok manifest
  asset := fun path =>
    match files.find? fun file => file.1.sameAs path with
    | some file => .ok file.2
    | none => .error "not found"

/-! ## Listed hashes -/

/-- **Listed hashes.** A directory check succeeds just when each listed name
    leads to a file that passes under the last component of its path.  For a
    plain name these are its own entries: its file can be read and has, for
    each algorithm listed for the name, one of the digests listed with it.  Any
    other name is looked up as something else. -/
theorem verifyDirectory_plain (reader : Reader) (manifestPath directory : Path)
    (manifest : Manifest) (h : reader.manifest manifestPath = .ok manifest) :
    (verifyDirectory reader manifestPath directory = .ok () ↔
      ∀ e ∈ manifest.entries, Passes reader manifest
        (assetName (directory.join ⟨e.asset⟩)) (directory.join ⟨e.asset⟩)) ∧
    (verifyDirectory reader manifestPath directory = .ok () →
      ∀ e ∈ manifest.entries, IsPlainName e.asset →
        Passes reader manifest e.asset (directory.join ⟨e.asset⟩)) ∧
    ∀ name : String, name ≠ "" →
      (assetName (directory.join ⟨name⟩) = name ↔ IsPlainName name) := by
  refine ⟨verifyDirectory_eq_ok_iff h, ?_, fun name hne => assetName_join_eq_iff hne⟩
  intro hok e he hplain
  have hpasses := (verifyDirectory_eq_ok_iff h).1 hok e he
  have hname : assetName (directory.join ⟨e.asset⟩) = e.asset :=
    (assetName_join_eq_iff hplain.1).2 hplain
  rwa [hname] at hpasses

/-- Two files with the text `abc` and the same last component. -/
def twinFiles : List (Path × List UInt8) :=
  [(⟨"dl/abc.txt"⟩, abcBytes), (⟨"dl/sub/abc.txt"⟩, abcBytes)]

/-- Whatever is listed for the second of these files, both are checked against
    what is listed for the first. -/
theorem verifyDirectory_twinFiles {second : Manifest.Entry}
    (hasset : second.asset = "sub/abc.txt") :
    verifyDirectory (filesReader ⟨[abcEntry "abc.txt", second]⟩ twinFiles) ⟨"pkg.hash"⟩ ⟨"dl"⟩ =
      .ok () := by
  have hpasses : ∀ path, (filesReader ⟨[abcEntry "abc.txt", second]⟩ twinFiles).asset path =
      .ok abcBytes → Passes (filesReader ⟨[abcEntry "abc.txt", second]⟩ twinFiles)
        ⟨[abcEntry "abc.txt", second]⟩ "abc.txt" path := fun path hread =>
    passes_abc hread (by simp) (by simp [hasset])
  rw [verifyDirectory_eq_ok_iff rfl]
  simp only [List.mem_cons, List.not_mem_nil, or_false, forall_eq_or_imp, forall_eq, hasset]
  exact ⟨hpasses ⟨"dl/abc.txt"⟩ rfl, hpasses ⟨"dl/sub/abc.txt"⟩ rfl⟩

/-- The digest listed for the plain name is checked, beside that of its twin. -/
theorem verifyDirectory_plain_twin :
    let manifest : Manifest := ⟨[abcEntry "abc.txt", abcEntry "sub/abc.txt"]⟩
    let reader := filesReader manifest twinFiles
    verifyDirectory reader ⟨"pkg.hash"⟩ ⟨"dl"⟩ = .ok () ∧
      Passes reader manifest "abc.txt" ⟨"dl/abc.txt"⟩ := by
  intro manifest reader
  have hok : verifyDirectory reader ⟨"pkg.hash"⟩ ⟨"dl"⟩ = .ok () := verifyDirectory_twinFiles rfl
  have hplain := verifyDirectory_plain reader ⟨"pkg.hash"⟩ ⟨"dl"⟩ manifest rfl
  exact ⟨hok, hplain.2.1 hok (abcEntry "abc.txt") (by simp [manifest]) (by decide)⟩

/-- The wrong hash that is listed for the second file is never looked at. -/
theorem verifyDirectory_skips_hash :
    let wrong : Manifest.Entry :=
      ⟨⟨"sha1", none⟩, "0000000000000000000000000000000000000000", "sub/abc.txt"⟩
    let manifest : Manifest := ⟨[abcEntry "abc.txt", wrong]⟩
    let reader := filesReader manifest twinFiles
    verifyDirectory reader ⟨"pkg.hash"⟩ ⟨"dl"⟩ = .ok () ∧
      reader.asset ((Path.mk "dl").join ⟨"sub/abc.txt"⟩) = .ok abcBytes ∧
      wrong ∈ manifest.entries ∧
      ¬ Confirmed (manifest.entriesFor "sub/abc.txt") abcBytes wrong.algorithm := by
  intro wrong manifest reader
  refine ⟨verifyDirectory_twinFiles rfl, rfl, by simp [manifest], ?_⟩
  rintro ⟨kind, hkind, e, he, -, hdigest⟩
  have hsha1 : DigestKind.resolve "sha1" none = some .sha1 := by decide
  obtain rfl : DigestKind.sha1 = kind := Option.some.inj (hsha1.symm.trans hkind)
  have hentries : manifest.entriesFor "sub/abc.txt" = [wrong] := rfl
  obtain rfl : e = wrong := by simpa [hentries] using he
  rw [← compute_abcBytes "abc.txt"] at hdigest
  exact absurd hdigest (by decide)

/-! ## Files outside -/

/-- **Confinement.** If each listed name leads inside the directory, or to a last
    component for which nothing is listed, then two sets of files that agree on
    the manifest and on all paths inside the directory get the same answer. -/
theorem verifyDirectory_confined (reader other : Reader) (manifestPath directory : Path)
    (hmanifest : reader.manifest manifestPath = other.manifest manifestPath)
    (hagree : ∀ path, Inside directory path → reader.asset path = other.asset path)
    (hinside : ∀ manifest, reader.manifest manifestPath = .ok manifest →
      ∀ e ∈ manifest.entries, Inside directory (directory.join ⟨e.asset⟩) ∨
        manifest.entriesFor (assetName (directory.join ⟨e.asset⟩)) = []) :
    verifyDirectory reader manifestPath directory =
      verifyDirectory other manifestPath directory := by
  cases hload : reader.manifest manifestPath with
  | error cause =>
    rw [verifyDirectory_of_error hload, verifyDirectory_of_error (hmanifest ▸ hload)]
  | ok manifest =>
    refine verifyDirectory_congr hload (hmanifest ▸ hload) ?_
    intro e he hlisted
    rcases hinside manifest hload e he with hpath | hnone
    · exact hagree _ hpath
    · exact absurd hnone hlisted

/-- One more file at an absolute path is not found inside a relative directory. -/
theorem asset_filesReader_append {manifest : Manifest} {files : List (Path × List UInt8)}
    {outside path : Path} {bytes : List UInt8} (houtside : outside.sameAs path = false) :
    (filesReader manifest files).asset path =
      (filesReader manifest (files ++ [(outside, bytes)])).asset path := by
  simp [filesReader, List.find?_append, houtside]

theorem sameAs_eq_false_of_inside {path : Path} (h : Inside ⟨"dl"⟩ path) :
    (Path.mk "/other/abc.txt").sameAs path = false := by
  obtain ⟨names, -, hpath⟩ := h
  have hdirectory : (Path.mk "dl").components = [.normal ['d', 'l']] := rfl
  have hother : (Path.mk "/other/abc.txt").components =
      [.root, .normal "other".toList, .normal "abc.txt".toList] := rfl
  simp [sameAs, hpath, hdirectory, hother]

/-- The first two names lead inside.  The last one leads out, but its path ends
    with no name, so that nothing is found in the manifest and no file is read. -/
theorem verifyDirectory_confined_sub :
    let manifest : Manifest :=
      ⟨[abcEntry "abc.txt", abcEntry "sub/abc.txt", abcEntry ".."]⟩
    verifyDirectory (filesReader manifest twinFiles) ⟨"pkg.hash"⟩ ⟨"dl"⟩ =
      verifyDirectory (filesReader manifest (twinFiles ++ [(⟨"/other/abc.txt"⟩, [])]))
        ⟨"pkg.hash"⟩ ⟨"dl"⟩ := by
  intro manifest
  refine verifyDirectory_confined _ _ _ _ rfl ?_ ?_
  · intro path hpath
    exact asset_filesReader_append (sameAs_eq_false_of_inside hpath)
  · rintro loaded hloaded
    obtain rfl : manifest = loaded := Except.ok.inj hloaded
    have hplain : Inside ⟨"dl"⟩ ((Path.mk "dl").join ⟨"abc.txt"⟩) :=
      inside_join (List.cons_ne_nil "abc.txt".toList []) rfl _
    have hsub : Inside ⟨"dl"⟩ ((Path.mk "dl").join ⟨"sub/abc.txt"⟩) :=
      inside_join (List.cons_ne_nil "sub".toList ["abc.txt".toList]) rfl _
    have hup : manifest.entriesFor (assetName ((Path.mk "dl").join ⟨".."⟩)) = [] := rfl
    simpa [manifest, abcEntry] using ⟨.inl hplain, .inl hsub, .inr hup⟩

/-- A name that is an absolute path: the check fails without a file that is not
    in the directory, and succeeds with it. -/
theorem verifyDirectory_reads_outside :
    let manifest : Manifest := ⟨[abcEntry "abc.txt", abcEntry "/other/abc.txt"]⟩
    let files : List (Path × List UInt8) := [(⟨"dl/abc.txt"⟩, abcBytes)]
    let reader := filesReader manifest files
    let other := filesReader manifest (files ++ [(⟨"/other/abc.txt"⟩, abcBytes)])
    (∀ path, Inside ⟨"dl"⟩ path → reader.asset path = other.asset path) ∧
      verifyDirectory reader ⟨"pkg.hash"⟩ ⟨"dl"⟩ =
        .error (.assetUnreadable ⟨"/other/abc.txt"⟩ "not found") ∧
      verifyDirectory other ⟨"pkg.hash"⟩ ⟨"dl"⟩ = .ok () := by
  intro manifest files reader other
  have hpasses : ∀ (reader : Reader) path, reader.asset path = .ok abcBytes →
      Passes reader manifest "abc.txt" path := fun reader path hread =>
    passes_abc hread (by simp [manifest]) (by simp [manifest, abcEntry])
  refine ⟨?_, ?_, ?_⟩
  · intro path hpath
    exact asset_filesReader_append (sameAs_eq_false_of_inside hpath)
  · rw [verifyDirectory_of_ok rfl, checkAll_eq_error_iff]
    refine ⟨[abcEntry "abc.txt"], abcEntry "/other/abc.txt", [], rfl, ?_, ?_⟩
    · simpa using verifyAsset_eq_ok_iff.2 (hpasses reader ⟨"dl/abc.txt"⟩ rfl)
    · exact verifyAsset_of_unreadable (List.cons_ne_nil (abcEntry "abc.txt") []) rfl
  · rw [verifyDirectory_eq_ok_iff rfl]
    simpa [manifest] using
      ⟨hpasses other ⟨"dl/abc.txt"⟩ rfl, hpasses other ⟨"/other/abc.txt"⟩ rfl⟩

end BillOfMaterials.Verification
