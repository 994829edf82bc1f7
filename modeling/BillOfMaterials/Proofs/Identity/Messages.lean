import BillOfMaterials.Identity
import BillOfMaterials.Package.Name
import BillOfMaterials.Proofs.Verification.Digests

/-! # What identities are digests of

    The identity of a project is cut off a digest, so projects may share one.  What is
    digested tells them apart: each name comes after a semicolon, and no name holds one.

    * `toList_projectText`: what is digested for a project is its names and the tool's,
      with semicolons between them; `splitOn_projectText` gets them back.
    * `projectText_ne_packageText`: nothing is digested both for a project and for a
      package.
    * `encodeUtf8_projectText` and `encodeUtf8_packageText`: the bytes, piece by piece.
    * `exists_digits_projectId`: which digits of the digest the identity has.
    * `projectId_message` puts all of it together, for the bytes of the texts. -/

namespace BillOfMaterials.Identity

open Text (encodeUtf8 encodeUtf8_append encodeUtf8_inj)

/-! ## Names between semicolons -/

theorem semicolon_notMem (name : PackageName) : ';' ∉ name.text.toList := by
  intro hmem
  have hchar := name.isNameChar_of_mem hmem
  -- No range of letters and digits holds the semicolon.
  exact absurd hchar (by decide +kernel)

/-- Parts with a separator between them: the first, then each other after a separator. -/
theorem intercalate_cons {α : Type} (separator : α) (first : List α) (rest : List (List α)) :
    [separator].intercalate (first :: rest) = first ++ rest.flatMap (separator :: ·) := by
  induction rest generalizing first with
  | nil => simp
  | cons next rest ih =>
    rw [List.intercalate_cons_cons, ih, List.flatMap_cons, List.append_assoc]
    rfl

theorem toList_projectText (names : List String) :
    (projectText names).toList =
      [';'].intercalate (toolName.toList :: names.map String.toList) := by
  rw [intercalate_cons, projectText, String.toList_append, String.toList_join, List.flatMap_map,
    List.flatMap_map]
  congr 2
  funext name
  rw [String.toList_append]
  rfl

/-- Cut at its semicolons, what is digested for a project gives the tool's name and then
    the names of the packages. -/
theorem splitOn_projectText (names : List PackageName) :
    (projectText (names.map (·.text))).toList.splitOn ';' =
      toolName.toList :: names.map (·.text.toList) := by
  rw [toList_projectText, List.map_map]
  apply List.splitOn_intercalate
  · intro part hpart
    rcases List.mem_cons.1 hpart with rfl | hpart
    · decide
    · obtain ⟨name, -, rfl⟩ := List.mem_map.1 hpart
      exact semicolon_notMem name
  · exact List.cons_ne_nil _ _

/-- Different rows of names give different texts. -/
theorem projectText_inj {first second : List PackageName} :
    projectText (first.map (·.text)) = projectText (second.map (·.text)) ↔ first = second := by
  constructor
  · intro h
    have hparts := congrArg (·.toList.splitOn ';') h
    simp only [splitOn_projectText] at hparts
    have hinjective : Function.Injective fun name : PackageName => name.text.toList := by
      intro first second heq
      exact PackageName.text_inj.1 (String.toList_inj.1 heq)
    exact hinjective.list_map (List.cons.inj hparts).2
  · rintro rfl
    rfl

/-! ## Projects and packages -/

/-- After the tool's name there is a semicolon or nothing for a project, and a hyphen for a
    package. -/
theorem projectText_ne_packageText (names : List String) (name : String) :
    projectText names ≠ packageText name := by
  rw [projectText, packageText, String.append_assoc]
  intro h
  -- The texts after the tool's name begin differently.
  have hrest := congrArg (·.toList.head?) ((String.append_right_inj _).1 h)
  cases names with
  | nil => simp at hrest
  | cons first names => simp at hrest

/-! ## Bytes -/

/-- The bytes that are digested for a project, piece by piece: the tool's name, and for each
    package a semicolon and the name. -/
theorem encodeUtf8_projectText (names : List String) :
    encodeUtf8 (projectText names) =
      encodeUtf8 toolName ++ names.flatMap fun name => 0x3B :: encodeUtf8 name := by
  have hsemicolon : encodeUtf8 ";" = [0x3B] := by decide
  rw [projectText, encodeUtf8_append]
  congr 1
  induction names with
  | nil => rfl
  | cons name names ih =>
    rw [List.map_cons, String.join_cons, encodeUtf8_append, encodeUtf8_append, ih, hsemicolon]
    rfl

/-- The bytes that are digested for a package. -/
theorem encodeUtf8_packageText (name : String) :
    encodeUtf8 (packageText name) = encodeUtf8 "releng-tool-" ++ encodeUtf8 name := by
  have hprefix : toolName ++ "-" = "releng-tool-" := by decide
  rw [packageText, hprefix, encodeUtf8_append]

/-! ## Digits -/

theorem exists_digits_projectId (names : List String) :
    ∃ digits, Verification.IsDigest 8 digits ∧
      digits.toList <+: (DigestKind.sha1.compute (encodeUtf8 (projectText names))).toList ∧
      projectId names = "releng-tool-" ++ digits := by
  have hdigest := Verification.isDigest_compute .sha1 (encodeUtf8 (projectText names))
  refine ⟨String.ofList ((DigestKind.sha1.compute (encodeUtf8 (projectText names))).toList.take 8),
    ⟨?_, ?_⟩, ?_, ?_⟩
  · rw [← String.length_toList, String.toList_ofList, List.length_take, String.length_toList,
      hdigest.length]
    rfl
  · intro c hc
    rw [String.toList_ofList] at hc
    exact hdigest.digits c (List.mem_of_mem_take hc)
  · rw [String.toList_ofList]
    exact List.take_prefix 8 _
  · rw [projectId]
    rfl

/-- **Identities of projects.** For rows of package names of any length: the bytes that are
    digested are the same if and only if the names are, in the same order.  They are the
    tool's name and each name after a semicolon, and the identity is the tool's name, a
    hyphen and the first eight digits of their SHA-1 digest.  The identity of a package is
    the SHA-1 digest of other bytes, those of the tool's name, a hyphen and the package's
    name: no project has them. -/
theorem projectId_message (first second : List PackageName) (name : PackageName) :
    let message := fun names : List PackageName => encodeUtf8 (projectText (names.map (·.text)))
    let packageMessage := encodeUtf8 "releng-tool-" ++ encodeUtf8 name.text
    (message first = message second ↔ first = second) ∧
    message first =
      encodeUtf8 "releng-tool" ++ first.flatMap (fun name => 0x3B :: encodeUtf8 name.text) ∧
    (∃ digits, Verification.IsDigest 8 digits ∧
      digits.toList <+: (DigestKind.sha1.compute (message first)).toList ∧
      projectId (first.map (·.text)) = "releng-tool-" ++ digits) ∧
    encodeUtf8 (packageText name.text) = packageMessage ∧
    packageUid name.text = DigestKind.sha1.compute packageMessage ∧
    message first ≠ packageMessage := by
  intro message packageMessage
  have hpackage : encodeUtf8 (packageText name.text) = packageMessage :=
    encodeUtf8_packageText name.text
  refine ⟨?_, ?_, exists_digits_projectId _, hpackage, ?_, ?_⟩
  · exact encodeUtf8_inj.trans projectText_inj
  · have hbytes := encodeUtf8_projectText (first.map (·.text))
    rw [List.flatMap_map] at hbytes
    exact hbytes
  · rw [packageUid, hpackage]
  · rw [← hpackage]
    intro h
    exact projectText_ne_packageText _ _ (encodeUtf8_inj.1 h)

end BillOfMaterials.Identity
