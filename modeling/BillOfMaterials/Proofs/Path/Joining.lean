import BillOfMaterials.Path
import BillOfMaterials.Proofs.Text.Words

/-! # Components of a joined path

    The text after a slash adds its own components to those before the slash,
    whatever they are.  Only the lead of a path is special: it stands at the
    beginning of the text or nowhere.

    * `components_eq` takes a path apart into its lead and its steps.
    * `components_join`: joining adds the steps of the second path.
    * `fileName?_join`: a plain name is the file name of every path that it is
      joined to.
    * `Inside base path` says that `path` leads from `base` downwards;
      `inside_join` is the condition on what is joined. -/

namespace BillOfMaterials.Path

open Text

/-! ## Lead and steps -/

/-- The component that begins a text: the root, the current directory or none. -/
def lead (text : List Char) : List Component := leadComponents (splitLead text).1

/-- The components of a text that are not its lead. -/
def steps (text : List Char) : List Component :=
  ((bodyPieces text).filter (!isVoid ·)).map .ofPiece

@[simp] theorem steps_nil : steps [] = [] := rfl

theorem steps_append_slash (a b : List Char) : steps (a ++ '/' :: b) = steps a ++ steps b := by
  have hpieces : bodyPieces (a ++ '/' :: b) = bodyPieces a ++ bodyPieces b :=
    pieces_append_sep (by decide) a b
  simp [steps, hpieces]

theorem steps_slash (b : List Char) : steps ('/' :: b) = steps b := by
  simpa using steps_append_slash [] b

/-- A lead names nothing where it is taken for a step. -/
theorem steps_splitLead (text : List Char) : steps (splitLead text).2 = steps text := by
  unfold splitLead
  split
  · next rest => exact (steps_slash rest).symm
  · rfl
  · next rest =>
    calc steps ('/' :: rest)
        = steps ['.'] ++ steps rest := by rw [steps_slash]; rfl
      _ = steps (['.'] ++ '/' :: rest) := (steps_append_slash ['.'] rest).symm
  · rfl

/-- Neither the root nor a current directory is a normal component. -/
theorem ne_normal_of_mem_lead {text : List Char} {c : Component} (h : c ∈ lead text)
    (name : List Char) : c ≠ .normal name := by
  unfold lead leadComponents at h
  split at h <;> simp_all

theorem components_eq (path : Path) :
    path.components = lead path.text.toList ++ steps path.text.toList := by
  rw [← steps_splitLead]
  rfl

theorem lead_of_ne {c : Char} (hslash : c ≠ '/') (hdot : c ≠ '.') (rest : List Char) :
    lead (c :: rest) = [] := by
  unfold lead splitLead
  split <;> simp_all [leadComponents]

theorem lead_dot_of_ne {c : Char} (hslash : c ≠ '/') (rest : List Char) :
    lead ('.' :: c :: rest) = [] := by
  unfold lead splitLead
  split <;> simp_all [leadComponents]

/-- What follows a slash is no part of the lead. -/
theorem lead_append_slash {a : List Char} (h : a ≠ []) (b : List Char) :
    lead (a ++ '/' :: b) = lead a := by
  match a with
  | c :: rest =>
    by_cases hslash : c = '/'
    · subst hslash
      rfl
    · by_cases hdot : c = '.'
      · subst hdot
        match rest with
        | [] => rfl
        | d :: rest =>
          by_cases hd : d = '/'
          · subst hd
            rfl
          · rw [lead_dot_of_ne hd]
            exact lead_dot_of_ne hd _
      · rw [lead_of_ne hslash hdot]
        exact lead_of_ne hslash hdot _

/-! ## Joining -/

theorem join_of_isAbsolute {path : Path} (h : path.isAbsolute = true) (base : Path) :
    base.join path = path := by
  simp [join, h]

/-- Joining puts one slash between two texts, or uses the one that is there. -/
theorem exists_join_eq {base path : Path} (hbase : base.text ≠ "")
    (hpath : path.isAbsolute = false) : ∃ text,
      (base.join path).text.toList = text ++ '/' :: path.text.toList ∧
      (base.text.toList = text ∨ base.text.toList = text ++ ['/']) := by
  unfold join
  rw [if_neg (by simp [hpath])]
  split
  · next hend =>
    -- The base ends in a slash already.
    have hlast : base.text.toList.getLast? = some '/' := by simpa [hbase] using hend
    obtain ⟨text, htext⟩ := List.getLast?_eq_some_iff.1 hlast
    exact ⟨text, by simp [htext], .inr htext⟩
  · exact ⟨base.text.toList, by simp, .inl rfl⟩

/-- **Joining.** A relative path adds its steps to the components of a base. -/
theorem components_join {base path : Path} (hbase : base.text ≠ "")
    (hpath : path.isAbsolute = false) :
    (base.join path).components = base.components ++ steps path.text.toList := by
  have hne : base.text.toList ≠ [] := by simpa using hbase
  obtain ⟨text, hjoin, htext | htext⟩ := exists_join_eq hbase hpath
  · rw [components_eq, components_eq, hjoin, htext, steps_append_slash,
      lead_append_slash (htext ▸ hne), List.append_assoc]
  · -- A slash at the end of the base names nothing.
    have hlead : lead (text ++ '/' :: path.text.toList) = lead (text ++ ['/']) := by
      cases text with
      | nil => rfl
      | cons c text => rw [lead_append_slash (by simp), lead_append_slash (by simp)]
    rw [components_eq, components_eq, hjoin, htext, hlead, steps_append_slash,
      steps_append_slash, steps_nil, List.append_nil, List.append_assoc]

/-- Whatever a path is joined to, its own steps come last. -/
theorem exists_components_join (base path : Path) :
    ∃ front, (base.join path).components = front ++ steps path.text.toList := by
  cases hpath : path.isAbsolute with
  | true => exact ⟨_, by rw [join_of_isAbsolute hpath, components_eq]⟩
  | false =>
    by_cases hbase : base.text = ""
    · refine ⟨lead path.text.toList, ?_⟩
      simp [join, hpath, hbase, components_eq]
    · exact ⟨_, components_join hbase hpath⟩

/-! ## Plain names -/

/-- The name of a file in a directory: not empty, without a slash, and neither
    `.` nor `..`. -/
def IsPlainName (name : String) : Prop :=
  name ≠ "" ∧ '/' ∉ name.toList ∧ name ≠ "." ∧ name ≠ ".."

instance (name : String) : Decidable (IsPlainName name) :=
  inferInstanceAs (Decidable (_ ∧ _ ∧ _ ∧ _))

theorem steps_of_isPlainName {name : String} (h : IsPlainName name) :
    steps name.toList = [.normal name.toList] := by
  obtain ⟨hne, hslash, hdot, hup⟩ := h
  have hpieces : bodyPieces name.toList = [name.toList] := by
    apply pieces_of_no_sep
    intro c hc
    simp only [beq_eq_false_iff_ne]
    rintro rfl
    exact hslash hc
  have hdot' : name.toList ≠ ['.'] := fun h => hdot (String.toList_injective h)
  have hup' : name.toList ≠ ['.', '.'] := fun h => hup (String.toList_injective h)
  simp [steps, hpieces, isVoid, Component.ofPiece, hne, hdot', hup']

/-- A plain name is the file name of every path that it is joined to. -/
theorem fileName?_join {name : String} (h : IsPlainName name) (base : Path) :
    (base.join ⟨name⟩).fileName? = some name := by
  obtain ⟨front, hfront⟩ := exists_components_join base ⟨name⟩
  rw [steps_of_isPlainName h] at hfront
  simp [fileName?, hfront]

/-- Only plain names are file names. -/
theorem isPlainName_of_fileName? {path : Path} {name : String}
    (h : path.fileName? = some name) : IsPlainName name := by
  obtain ⟨piece, hlast, rfl⟩ : ∃ piece, path.components.getLast? = some (.normal piece) ∧
      String.ofList piece = name := by
    unfold fileName? at h
    split at h
    · next piece hlast => exact ⟨piece, hlast, by simpa using h⟩
    · cases h
  have hmem : Component.normal piece ∈ path.components := List.mem_of_getLast? hlast
  rw [components_eq, List.mem_append] at hmem
  rcases hmem with hmem | hmem
  · exact absurd rfl (ne_normal_of_mem_lead hmem piece)
  · -- The name is a piece between slashes that names something other than `..`.
    obtain ⟨piece', hpiece, hnormal⟩ := List.mem_map.1 hmem
    obtain ⟨hpiece, hvoid⟩ := List.mem_filter.1 hpiece
    unfold Component.ofPiece at hnormal
    split at hnormal
    · cases hnormal
    · next hup =>
      obtain rfl : piece' = piece := by simpa using hnormal
      have hslash : '/' ∉ piece' := fun h => by
        simpa using not_sep_of_mem_pieces piece' hpiece '/' h
      simp only [isVoid, Bool.not_eq_true', Bool.or_eq_false_iff, List.isEmpty_eq_false_iff,
        beq_eq_false_iff_ne] at hvoid
      refine ⟨?_, by simpa using hslash, ?_, ?_⟩
      · simpa using hvoid.1
      · exact fun h => hvoid.2 (by simpa using congrArg String.toList h)
      · exact fun h => hup (by simpa using congrArg String.toList h)

/-! ## Below a directory -/

/-- `path` is `base` followed by one normal component or more. -/
def Inside (base path : Path) : Prop :=
  ∃ names : List (List Char), names ≠ [] ∧
    path.components = base.components ++ names.map .normal

theorem lead_of_isAbsolute {path : Path} (h : path.isAbsolute = true) :
    lead path.text.toList = [.root] := by
  have hhead : path.text.toList.head? = some '/' := by simpa [isAbsolute] using h
  obtain ⟨rest, hrest⟩ := List.head?_eq_some_iff.1 hhead
  rw [hrest]
  rfl

/-- A path of normal components only leads downwards from wherever it is joined. -/
theorem inside_join {path : Path} {names : List (List Char)} (hne : names ≠ [])
    (h : path.components = names.map .normal) (base : Path) : Inside base (base.join path) := by
  have hlead : lead path.text.toList = [] := by
    rw [List.eq_nil_iff_forall_not_mem]
    intro c hc
    have hmem : c ∈ path.components := by simp [components_eq, hc]
    obtain ⟨name, -, hname⟩ := List.mem_map.1 (h ▸ hmem)
    exact ne_normal_of_mem_lead hc name hname.symm
  have hrelative : path.isAbsolute = false := by
    cases hpath : path.isAbsolute with
    | false => rfl
    | true =>
      rw [lead_of_isAbsolute hpath] at hlead
      cases hlead
  refine ⟨names, hne, ?_⟩
  by_cases hbase : base.text = ""
  · -- The empty base has no components, and joining leaves the path as it is.
    have hjoin : base.join path = path := by simp [join, hrelative, hbase]
    have hnone : base.components = [] := by
      simp [components_eq, hbase, lead, splitLead, leadComponents]
    rw [hjoin, hnone, h, List.nil_append]
  · have hsteps : path.components = steps path.text.toList := by
      rw [components_eq, hlead, List.nil_append]
    rw [components_join hbase hrelative, ← hsteps, h]

end BillOfMaterials.Path
