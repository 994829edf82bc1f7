import BillOfMaterials.Verification

/-! # What a verdict means

    Files are checked in order, and for each file the algorithms that the
    manifest lists for its name, in the order of their first entries.  The
    first check that fails ends the run.

    * `checkAll_eq_ok_iff` and `checkAll_eq_error_iff` say what a row of checks
      answers; `checkAll_eraseDups`: a repeated check changes nothing.
    * `Confirmed` and `Refuted` are the two outcomes for one algorithm, `Passes`
      and `FailsWith` those for one file, told without the order of the work.
    * `verify_verdict`: a run succeeds just when every file passes; else its
      error is that of the first file that does not, and depends on nothing but
      what is listed for this file and what is read from it. -/

namespace BillOfMaterials.Verification

/-! ## Checks in a row -/

section checks

variable {α : Type} {check : α → Except VerifyError Unit}

@[simp] theorem checkAll_nil : checkAll check [] = .ok () := rfl

theorem checkAll_cons_of_ok {x : α} (h : check x = .ok ()) (rest : List α) :
    checkAll check (x :: rest) = checkAll check rest := by
  rw [checkAll, h]
  rfl

theorem checkAll_cons_of_error {x : α} {error : VerifyError} (h : check x = .error error)
    (rest : List α) : checkAll check (x :: rest) = .error error := by
  rw [checkAll, h]
  rfl

/-- A row of checks succeeds just when each of them does. -/
theorem checkAll_eq_ok_iff {items : List α} :
    checkAll check items = .ok () ↔ ∀ x ∈ items, check x = .ok () := by
  induction items with
  | nil => simp
  | cons x rest ih =>
    cases hx : check x with
    | error error => simp [checkAll_cons_of_error hx, hx]
    | ok => simp [checkAll_cons_of_ok hx, hx, ih]

/-- The error of a row of checks is that of the first check that fails. -/
theorem checkAll_eq_error_iff {items : List α} {error : VerifyError} :
    checkAll check items = .error error ↔ ∃ before x after, items = before ++ x :: after ∧
      (∀ y ∈ before, check y = .ok ()) ∧ check x = .error error := by
  constructor
  · intro h
    induction items with
    | nil => cases h
    | cons x rest ih =>
      cases hx : check x with
      | error e =>
        rw [checkAll_cons_of_error hx] at h
        exact ⟨[], x, rest, rfl, by simp, hx.trans h⟩
      | ok =>
        rw [checkAll_cons_of_ok hx] at h
        obtain ⟨before, y, after, rfl, hbefore, hy⟩ := ih h
        exact ⟨x :: before, y, after, rfl, by simpa [hx] using hbefore, hy⟩
  · rintro ⟨before, x, after, rfl, hbefore, hx⟩
    induction before with
    | nil => exact checkAll_cons_of_error hx after
    | cons y before ih =>
      rw [List.cons_append, checkAll_cons_of_ok (hbefore y (by simp))]
      exact ih fun z hz => hbefore z (by simp [hz])

theorem checkAll_congr {check' : α → Except VerifyError Unit} {items : List α}
    (h : ∀ x ∈ items, check x = check' x) : checkAll check items = checkAll check' items := by
  induction items with
  | nil => rfl
  | cons x rest ih =>
    have hrest := ih fun y hy => h y (by simp [hy])
    rw [checkAll, checkAll, h x (by simp), hrest]

theorem checkAll_map {β : Type} (f : β → α) (items : List β) :
    checkAll check (items.map f) = checkAll (fun x => check (f x)) items := by
  induction items with
  | nil => rfl
  | cons x rest ih => rw [List.map_cons, checkAll, checkAll, ih]

/-- Checks that succeed may be left out. -/
theorem checkAll_filter {keep : α → Bool} {items : List α}
    (h : ∀ x ∈ items, keep x = false → check x = .ok ()) :
    checkAll check (items.filter keep) = checkAll check items := by
  induction items with
  | nil => rfl
  | cons x rest ih =>
    have hrest := ih fun y hy => h y (by simp [hy])
    cases hx : keep x with
    | true => rw [List.filter_cons_of_pos hx, checkAll, checkAll, hrest]
    | false =>
      rw [List.filter_cons_of_neg (by simp [hx]), checkAll_cons_of_ok (h x (by simp) hx), hrest]

/-- A check that is made once more finds no other error. -/
theorem checkAll_eraseDups [DecidableEq α] (items : List α) :
    checkAll check items.eraseDups = checkAll check items := by
  match items with
  | [] => rfl
  | x :: rest =>
    have ih := checkAll_eraseDups (rest.filter fun y => !y == x)
    rw [List.eraseDups_cons, checkAll, checkAll, ih]
    cases hx : check x with
    | error => rfl
    | ok =>
      -- What is left out are repetitions of `x`, which has just succeeded.
      have hfilter : checkAll check (rest.filter fun y => !y == x) = checkAll check rest := by
        apply checkAll_filter
        intro y _ hy
        obtain rfl : y = x := by simpa using hy
        exact hx
      rw [hfilter]
termination_by items.length
decreasing_by
  have := List.length_filter_le (fun y => !y == x) rest
  simp only [List.length_cons]
  omega

end checks

/-! ## One algorithm -/

/-- The algorithm can be computed, and the digest of the bytes is one of those
    that the entries list for it. -/
def Confirmed (entries : List Manifest.Entry) (bytes : List UInt8)
    (algorithm : Manifest.Algorithm) : Prop :=
  ∃ kind, DigestKind.resolve algorithm.name algorithm.keyLength? = some kind ∧
    ∃ e ∈ entries, e.algorithm = algorithm ∧ e.digest = kind.compute bytes

/-- Why an algorithm is not confirmed. -/
inductive Refuted (asset : String) (entries : List Manifest.Entry) (bytes : List UInt8)
    (algorithm : Manifest.Algorithm) : VerifyError → Prop where
  | unsupported : DigestKind.resolve algorithm.name algorithm.keyLength? = none →
      Refuted asset entries bytes algorithm (.unsupportedAlgorithm algorithm.render asset)
  /-- The error shows every digest that the entries list for the algorithm. -/
  | mismatch {kind : DigestKind} :
      DigestKind.resolve algorithm.name algorithm.keyLength? = some kind →
      (∀ e ∈ entries, e.algorithm = algorithm → e.digest ≠ kind.compute bytes) →
      Refuted asset entries bytes algorithm (.mismatch asset algorithm.render
        (String.intercalate ", " ((entries.filter (·.algorithm = algorithm)).map (·.digest)))
        (kind.compute bytes))

theorem mem_accepted {entries : List Manifest.Entry} {algorithm : Manifest.Algorithm}
    {digest : String} : digest ∈ accepted entries algorithm ↔
      ∃ e ∈ entries, e.algorithm = algorithm ∧ e.digest = digest := by
  simp [accepted, and_assoc]

theorem verifyAlgorithm_of_confirmed {entries : List Manifest.Entry} {bytes : List UInt8}
    {algorithm : Manifest.Algorithm} (h : Confirmed entries bytes algorithm) (asset : String) :
    verifyAlgorithm asset entries bytes algorithm = .ok () := by
  obtain ⟨kind, hkind, hlisted⟩ := h
  have hmem := mem_accepted.2 hlisted
  simp [verifyAlgorithm, hkind, hmem]

theorem verifyAlgorithm_of_refuted {asset : String} {entries : List Manifest.Entry}
    {bytes : List UInt8} {algorithm : Manifest.Algorithm} {error : VerifyError}
    (h : Refuted asset entries bytes algorithm error) :
    verifyAlgorithm asset entries bytes algorithm = .error error := by
  cases h with
  | unsupported hnone => simp [verifyAlgorithm, hnone]
  | @mismatch kind hkind hdiffer =>
    have hmem : kind.compute bytes ∉ accepted entries algorithm := by
      rw [mem_accepted]
      rintro ⟨e, he, halgorithm, hdigest⟩
      exact hdiffer e he halgorithm hdigest
    simp only [verifyAlgorithm, hkind, if_neg hmem]
    rfl

theorem confirmed_or_refuted (asset : String) (entries : List Manifest.Entry)
    (bytes : List UInt8) (algorithm : Manifest.Algorithm) :
    Confirmed entries bytes algorithm ∨ ∃ error, Refuted asset entries bytes algorithm error := by
  cases hkind : DigestKind.resolve algorithm.name algorithm.keyLength? with
  | none => exact .inr ⟨_, .unsupported hkind⟩
  | some kind =>
    by_cases hlisted : ∃ e ∈ entries, e.algorithm = algorithm ∧ e.digest = kind.compute bytes
    · exact .inl ⟨kind, hkind, hlisted⟩
    · refine .inr ⟨_, .mismatch hkind ?_⟩
      intro e he halgorithm hdigest
      exact hlisted ⟨e, he, halgorithm, hdigest⟩

theorem verifyAlgorithm_eq_ok_iff {asset : String} {entries : List Manifest.Entry}
    {bytes : List UInt8} {algorithm : Manifest.Algorithm} :
    verifyAlgorithm asset entries bytes algorithm = .ok () ↔ Confirmed entries bytes algorithm := by
  refine ⟨fun h => ?_, fun h => verifyAlgorithm_of_confirmed h asset⟩
  rcases confirmed_or_refuted asset entries bytes algorithm with hok | ⟨error, herror⟩
  · exact hok
  · rw [verifyAlgorithm_of_refuted herror] at h
    cases h

theorem verifyAlgorithm_eq_error_iff {asset : String} {entries : List Manifest.Entry}
    {bytes : List UInt8} {algorithm : Manifest.Algorithm} {error : VerifyError} :
    verifyAlgorithm asset entries bytes algorithm = .error error ↔
      Refuted asset entries bytes algorithm error := by
  refine ⟨fun h => ?_, verifyAlgorithm_of_refuted⟩
  rcases confirmed_or_refuted asset entries bytes algorithm with hok | ⟨error', herror⟩
  · rw [verifyAlgorithm_of_confirmed hok] at h
    cases h
  · rw [verifyAlgorithm_of_refuted herror] at h
    obtain rfl : error' = error := by simpa using h
    exact herror

/-! ## One file -/

/-- The file at `path` passes as `asset`: the manifest lists this name, the file
    can be read, and the algorithm of every entry for the name is confirmed. -/
structure Passes (reader : Reader) (manifest : Manifest) (asset : String) (path : Path) :
    Prop where
  listed : ∃ e ∈ manifest.entries, e.asset = asset
  confirmed : ∃ bytes, reader.asset path = .ok bytes ∧
    ∀ e ∈ manifest.entries, e.asset = asset →
      Confirmed (manifest.entriesFor asset) bytes e.algorithm

/-- Why the file at a path does not pass.  A name that is not listed comes before
    reading, and the entries for the name are tried in order. -/
inductive FailsWith (reader : Reader) (manifest : Manifest) (path : Path) : VerifyError → Prop where
  | missingEntry : (∀ e ∈ manifest.entries, e.asset ≠ assetName path) →
      FailsWith reader manifest path (.missingEntry (assetName path))
  | unreadable {details : String} : (∃ e ∈ manifest.entries, e.asset = assetName path) →
      reader.asset path = .error details →
      FailsWith reader manifest path (.assetUnreadable path details)
  | algorithm {bytes : List UInt8} {before after : List Manifest.Entry} {e : Manifest.Entry}
      {error : VerifyError} : reader.asset path = .ok bytes →
      manifest.entriesFor (assetName path) = before ++ e :: after →
      (∀ b ∈ before, Confirmed (manifest.entriesFor (assetName path)) bytes b.algorithm) →
      Refuted (assetName path) (manifest.entriesFor (assetName path)) bytes e.algorithm error →
      FailsWith reader manifest path error

section files

variable {reader other : Reader} {manifest otherManifest : Manifest} {path : Path}

theorem mem_entriesFor {e : Manifest.Entry} {asset : String} :
    e ∈ manifest.entriesFor asset ↔ e ∈ manifest.entries ∧ e.asset = asset := by
  simp [Manifest.entriesFor]

theorem entriesFor_eq_nil_iff {asset : String} :
    manifest.entriesFor asset = [] ↔ ∀ e ∈ manifest.entries, e.asset ≠ asset := by
  simp [Manifest.entriesFor, List.filter_eq_nil_iff]

theorem entriesFor_ne_nil_iff {asset : String} :
    manifest.entriesFor asset ≠ [] ↔ ∃ e ∈ manifest.entries, e.asset = asset := by
  simp [entriesFor_eq_nil_iff]

theorem verifyAsset_of_nil (h : manifest.entriesFor (assetName path) = []) :
    verifyAsset reader manifest path = .error (.missingEntry (assetName path)) := by
  simp [verifyAsset, h]

theorem verifyAsset_of_unreadable {details : String}
    (h : manifest.entriesFor (assetName path) ≠ []) (hread : reader.asset path = .error details) :
    verifyAsset reader manifest path = .error (.assetUnreadable path details) := by
  simp [verifyAsset, h, hread]

/-- The entries are checked in order, as if no algorithm were listed twice. -/
theorem verifyAsset_of_bytes {bytes : List UInt8} (h : manifest.entriesFor (assetName path) ≠ [])
    (hread : reader.asset path = .ok bytes) :
    verifyAsset reader manifest path =
      checkAll (fun e => verifyAlgorithm (assetName path) (manifest.entriesFor (assetName path))
        bytes e.algorithm) (manifest.entriesFor (assetName path)) := by
  rw [← checkAll_map Manifest.Entry.algorithm, ← checkAll_eraseDups]
  simp [verifyAsset, h, hread]

theorem verifyAsset_eq_ok_iff :
    verifyAsset reader manifest path = .ok () ↔ Passes reader manifest (assetName path) path := by
  -- Nothing is listed, or nothing can be read, or the listed algorithms decide.
  by_cases hnil : manifest.entriesFor (assetName path) = []
  · rw [verifyAsset_of_nil hnil]
    refine ⟨nofun, fun h => ?_⟩
    exact absurd hnil (entriesFor_ne_nil_iff.2 h.listed)
  · cases hread : reader.asset path with
    | error details =>
      rw [verifyAsset_of_unreadable hnil hread]
      refine ⟨nofun, fun h => ?_⟩
      obtain ⟨bytes, hbytes, -⟩ := h.confirmed
      rw [hread] at hbytes
      cases hbytes
    | ok bytes =>
      rw [verifyAsset_of_bytes hnil hread, checkAll_eq_ok_iff]
      constructor
      · intro h
        refine ⟨entriesFor_ne_nil_iff.1 hnil, bytes, hread, ?_⟩
        intro e he hasset
        exact verifyAlgorithm_eq_ok_iff.1 (h e (mem_entriesFor.2 ⟨he, hasset⟩))
      · intro h e he
        obtain ⟨hmem, hasset⟩ := mem_entriesFor.1 he
        obtain ⟨bytes', hbytes', hconfirmed⟩ := h.confirmed
        obtain rfl : bytes = bytes' := by
          rw [hread] at hbytes'
          exact Except.ok.inj hbytes'
        exact verifyAlgorithm_eq_ok_iff.2 (hconfirmed e hmem hasset)

theorem verifyAsset_eq_error_iff {error : VerifyError} :
    verifyAsset reader manifest path = .error error ↔ FailsWith reader manifest path error := by
  constructor
  · intro h
    by_cases hnil : manifest.entriesFor (assetName path) = []
    · rw [verifyAsset_of_nil hnil] at h
      obtain rfl := Except.error.inj h
      exact .missingEntry (entriesFor_eq_nil_iff.1 hnil)
    · cases hread : reader.asset path with
      | error details =>
        rw [verifyAsset_of_unreadable hnil hread] at h
        obtain rfl := Except.error.inj h
        exact .unreadable (entriesFor_ne_nil_iff.1 hnil) hread
      | ok bytes =>
        rw [verifyAsset_of_bytes hnil hread, checkAll_eq_error_iff] at h
        obtain ⟨before, e, after, hentries, hbefore, herror⟩ := h
        refine .algorithm hread hentries ?_ (verifyAlgorithm_eq_error_iff.1 herror)
        intro b hb
        exact verifyAlgorithm_eq_ok_iff.1 (hbefore b hb)
  · intro h
    cases h with
    | missingEntry hnone => exact verifyAsset_of_nil (entriesFor_eq_nil_iff.2 hnone)
    | unreadable hlisted hread =>
      exact verifyAsset_of_unreadable (entriesFor_ne_nil_iff.2 hlisted) hread
    | algorithm hread hentries hbefore hrefuted =>
      rw [verifyAsset_of_bytes (by simp [hentries]) hread, checkAll_eq_error_iff]
      refine ⟨_, _, _, hentries, ?_, verifyAlgorithm_eq_error_iff.2 hrefuted⟩
      intro b hb
      exact verifyAlgorithm_eq_ok_iff.2 (hbefore b hb)

/-- The check of a file reads the entries for its name and the file, and nothing
    else; without an entry the file is not read. -/
theorem verifyAsset_congr
    (hentries : manifest.entriesFor (assetName path) = otherManifest.entriesFor (assetName path))
    (hread : manifest.entriesFor (assetName path) ≠ [] → reader.asset path = other.asset path) :
    verifyAsset reader manifest path = verifyAsset other otherManifest path := by
  by_cases hnil : manifest.entriesFor (assetName path) = []
  · rw [verifyAsset_of_nil hnil, verifyAsset_of_nil (hentries ▸ hnil)]
  · simp only [verifyAsset, ← hentries, hread hnil]

end files

/-! ## A run -/

theorem verify_of_error {reader : Reader} {manifestPath : Path} {cause : Manifest.LoadError}
    (h : reader.manifest manifestPath = .error cause) (assets : List Path) :
    verify reader manifestPath assets = .error (.manifest cause) := by
  simp only [verify, load, h]
  rfl

theorem verify_of_ok {reader : Reader} {manifestPath : Path} {manifest : Manifest}
    (h : reader.manifest manifestPath = .ok manifest) (assets : List Path) :
    verify reader manifestPath assets = checkAll (verifyAsset reader manifest) assets := by
  simp only [verify, load, h]
  rfl

theorem verify_eq_ok_iff {reader : Reader} {manifestPath : Path} {assets : List Path} :
    verify reader manifestPath assets = .ok () ↔
      ∃ manifest, reader.manifest manifestPath = .ok manifest ∧
        ∀ path ∈ assets, Passes reader manifest (assetName path) path := by
  cases hload : reader.manifest manifestPath with
  | error cause => simp [verify_of_error hload]
  | ok manifest => simp [verify_of_ok hload, checkAll_eq_ok_iff, verifyAsset_eq_ok_iff]

theorem verify_eq_error_iff {reader : Reader} {manifestPath : Path} {assets : List Path}
    {error : VerifyError} :
    verify reader manifestPath assets = .error error ↔
      (∃ cause, reader.manifest manifestPath = .error cause ∧ error = .manifest cause) ∨
      ∃ manifest, reader.manifest manifestPath = .ok manifest ∧
        ∃ before path after, assets = before ++ path :: after ∧
          (∀ earlier ∈ before, Passes reader manifest (assetName earlier) earlier) ∧
          FailsWith reader manifest path error := by
  cases hload : reader.manifest manifestPath with
  | error cause => simp [verify_of_error hload, eq_comm]
  | ok manifest =>
    simp [verify_of_ok hload, checkAll_eq_error_iff, verifyAsset_eq_ok_iff,
      verifyAsset_eq_error_iff]

/-- **Verdicts.** A run succeeds just when the manifest loads and every file
    passes under its last component.  An error is that of the manifest, or that
    of the first file that does not pass.  Any other run gives the same error in
    which the files before this one pass, too, and the same is listed for this
    one's name and read from it: neither later files nor other entries matter. -/
theorem verify_verdict (reader : Reader) (manifestPath : Path) (assets : List Path) :
    (verify reader manifestPath assets = .ok () ↔
      ∃ manifest, reader.manifest manifestPath = .ok manifest ∧
        ∀ path ∈ assets, Passes reader manifest (assetName path) path) ∧
    (∀ error, verify reader manifestPath assets = .error error ↔
      (∃ cause, reader.manifest manifestPath = .error cause ∧ error = .manifest cause) ∨
      ∃ manifest, reader.manifest manifestPath = .ok manifest ∧
        ∃ before path after, assets = before ++ path :: after ∧
          (∀ earlier ∈ before, Passes reader manifest (assetName earlier) earlier) ∧
          FailsWith reader manifest path error) ∧
    ∀ manifest path error, FailsWith reader manifest path error →
      ∀ (other : Reader) otherManifestPath otherManifest before after,
        other.manifest otherManifestPath = .ok otherManifest →
        (∀ earlier ∈ before, Passes other otherManifest (assetName earlier) earlier) →
        other.asset path = reader.asset path →
        otherManifest.entriesFor (assetName path) = manifest.entriesFor (assetName path) →
        verify other otherManifestPath (before ++ path :: after) = .error error := by
  refine ⟨verify_eq_ok_iff, fun error => verify_eq_error_iff, ?_⟩
  intro manifest path error hfails other otherManifestPath otherManifest before after hload hpass
    hread hentries
  -- Both runs check this file in the same way, and nothing before it fails.
  have hsame : verifyAsset other otherManifest path = verifyAsset reader manifest path :=
    verifyAsset_congr hentries fun _ => hread
  have hother : FailsWith other otherManifest path error := by
    rw [← verifyAsset_eq_error_iff, hsame]
    exact verifyAsset_eq_error_iff.2 hfails
  exact verify_eq_error_iff.2
    (.inr ⟨otherManifest, hload, before, path, after, rfl, hpass, hother⟩)

/-! ## The text `abc` -/

/-- The bytes of the text `abc`. -/
def abcBytes : List UInt8 := [0x61, 0x62, 0x63]

/-- The entry that lists the SHA-1 digest of `abc` for a name. -/
def abcEntry (name : String) : Manifest.Entry :=
  ⟨⟨"sha1", none⟩, "a9993e364706816aba3e25717850c26c9cd0d89d", name⟩

theorem compute_abcBytes (name : String) :
    (abcEntry name).digest = DigestKind.sha1.compute abcBytes := by
  have hdigest : DigestKind.sha1.compute abcBytes = "a9993e364706816aba3e25717850c26c9cd0d89d" := by
    decide +kernel
  exact hdigest.symm

theorem confirmed_abc {entries : List Manifest.Entry} {name : String}
    (h : abcEntry name ∈ entries) : Confirmed entries abcBytes ⟨"sha1", none⟩ :=
  ⟨.sha1, rfl, abcEntry name, h, rfl, compute_abcBytes name⟩

/-- A file with the text `abc` passes where this text is one of the alternatives listed
    for its only algorithm. -/
theorem passes_of_abcEntry {reader : Reader} {manifest : Manifest} {name : String} {path : Path}
    (hread : reader.asset path = .ok abcBytes) (hlisted : abcEntry name ∈ manifest.entries)
    (hsha1 : ∀ e ∈ manifest.entries, e.asset = name → e.algorithm = ⟨"sha1", none⟩) :
    Passes reader manifest name path := by
  refine ⟨⟨abcEntry name, hlisted, rfl⟩, abcBytes, hread, ?_⟩
  intro e he hasset
  rw [hsha1 e he hasset]
  exact confirmed_abc (mem_entriesFor.2 ⟨hlisted, rfl⟩)

/-- A file with the text `abc` passes where its entries list just this text. -/
theorem passes_abc {reader : Reader} {manifest : Manifest} {name : String} {path : Path}
    (hread : reader.asset path = .ok abcBytes) (hlisted : abcEntry name ∈ manifest.entries)
    (honly : ∀ e ∈ manifest.entries, e.asset = name → e = abcEntry name) :
    Passes reader manifest name path := by
  refine passes_of_abcEntry hread hlisted ?_
  intro e he hasset
  rw [honly e he hasset]
  rfl

/-- The second file's first algorithm is confirmed and its second one is unknown.
    The run's other entries, and its third file, which nothing lists, do not
    change that. -/
theorem verify_verdict_second_file :
    let md5 : Manifest.Entry := ⟨⟨"md5", none⟩, "900150983cd24fb0d6963f7d28e17f72", "b.txt"⟩
    let few : Manifest := ⟨[abcEntry "b.txt", md5]⟩
    let many : Manifest := ⟨[abcEntry "a.txt", abcEntry "b.txt", abcEntry "c.txt", md5]⟩
    let reader (manifest : Manifest) : Reader :=
      { manifest := fun _ => .ok manifest, asset := fun _ => .ok abcBytes }
    FailsWith (reader few) few ⟨"dl/b.txt"⟩ (.unsupportedAlgorithm "md5" "b.txt") ∧
      verify (reader many) ⟨"pkg.hash"⟩ [⟨"dl/a.txt"⟩, ⟨"dl/b.txt"⟩, ⟨"dl/none.txt"⟩] =
        .error (.unsupportedAlgorithm "md5" "b.txt") := by
  intro md5 few many reader
  have hfails : FailsWith (reader few) few ⟨"dl/b.txt"⟩ (.unsupportedAlgorithm "md5" "b.txt") := by
    have hentries : few.entriesFor (assetName ⟨"dl/b.txt"⟩) = [abcEntry "b.txt"] ++ md5 :: [] := rfl
    have hmd5 : DigestKind.resolve "md5" none = none := by decide
    refine .algorithm rfl hentries ?_ (.unsupported hmd5)
    intro b hb
    obtain rfl : b = abcEntry "b.txt" := by simpa using hb
    exact confirmed_abc (by simp [hentries] : abcEntry "b.txt" ∈ _)
  have hfirst : Passes (reader many) many (assetName ⟨"dl/a.txt"⟩) ⟨"dl/a.txt"⟩ := by
    have hname : assetName ⟨"dl/a.txt"⟩ = "a.txt" := rfl
    rw [hname]
    exact passes_abc rfl (by simp [many]) (by simp [many, md5, abcEntry])
  refine ⟨hfails, ?_⟩
  exact (verify_verdict (reader few) ⟨"pkg.hash"⟩ []).2.2 few ⟨"dl/b.txt"⟩ _ hfails (reader many)
    ⟨"pkg.hash"⟩ many [⟨"dl/a.txt"⟩] [⟨"dl/none.txt"⟩] rfl (by simpa using hfirst) rfl rfl

end BillOfMaterials.Verification
