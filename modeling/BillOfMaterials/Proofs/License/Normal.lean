import BillOfMaterials.License.Input
import BillOfMaterials.Proofs.License.Layout
import BillOfMaterials.Proofs.License.Reading

/-! # Normal trees

    A tree is normal when no set in it could be left out: each set has two
    parts or more and none of them is a set of the same polarity.  A leaf is a
    license with the exceptions glued to it.

    * `Normal.join`: joining keeps trees normal.
    * `normal_of_parse`: every tree that is read is normal. -/

namespace BillOfMaterials.License

open Stacks

/-- Trees without a set that could be left out. -/
inductive Normal : License → Prop where
  | leaf (name : Identifier) (exceptions : List Identifier) :
      Normal (.leaf (glued name.text (exceptions.map Identifier.text)))
  | set {p : Polarity} {parts : List License} : 2 ≤ parts.length →
      (∀ x ∈ parts, x.polarity? ≠ some p) → (∀ x ∈ parts, Normal x) → Normal (.set p parts)

/-! ## Joining -/

theorem operandsFor_of_polarity?_ne {p : Polarity} {x : License} (h : x.polarity? ≠ some p) :
    operandsFor p x = [x] := by
  cases x with
  | leaf => rfl
  | set q parts => exact operandsFor_ne (by simpa [polarity?] using h) parts

/-- A normal tree gives a set at least one part, and only parts that the set may
    hold. -/
theorem Normal.operandsFor {x : License} (h : Normal x) (p : Polarity) :
    1 ≤ (operandsFor p x).length ∧
      ∀ y ∈ License.operandsFor p x, y.polarity? ≠ some p ∧ Normal y := by
  by_cases hp : x.polarity? = some p
  · cases h with
    | leaf => simp [polarity?] at hp
    | set hlength hpolarity hparts =>
      obtain rfl : _ = p := by simpa [polarity?] using hp
      rw [operandsFor_self]
      exact ⟨by omega, fun y hy => ⟨hpolarity y hy, hparts y hy⟩⟩
  · rw [operandsFor_of_polarity?_ne hp]
    simpa using ⟨hp, h⟩

theorem Normal.join {left right : License} (hl : Normal left) (hr : Normal right)
    (p : Polarity) : Normal (License.join p left right) := by
  obtain ⟨hl1, hl2⟩ := hl.operandsFor p
  obtain ⟨hr1, hr2⟩ := hr.operandsFor p
  refine .set ?_ ?_ ?_
  · rw [List.length_append]
    omega
  · intro x hx
    rcases List.mem_append.1 hx with hx | hx
    · exact (hl2 x hx).1
    · exact (hr2 x hx).1
  · intro x hx
    rcases List.mem_append.1 hx with hx | hx
    · exact (hl2 x hx).2
    · exact (hr2 x hx).2

/-- One more exception at the end. -/
theorem Normal.attach {text : String} (h : Normal (.leaf text)) (exception : Identifier) :
    Normal (.leaf (text ++ withSeparator ++ exception.text)) := by
  cases h with
  | leaf name exceptions =>
    have := Normal.leaf name (exceptions ++ [exception])
    simpa [glued] using this

/-! ## Reading -/

/-- All trees on a stack are normal. -/
def AllNormal (trees : List License) : Prop := ∀ x ∈ trees, Normal x

theorem AllNormal.joinTop {p : Polarity} {trees joined : List License} (h : AllNormal trees)
    (hj : Stacks.joinTop p trees = some joined) : AllNormal joined := by
  obtain ⟨right, left, rest, rfl, rfl⟩ := joinTop_eq_some hj
  intro x hx
  rcases List.mem_cons.1 hx with rfl | hx
  · exact (h left (by simp)).join (h right (by simp)) p
  · exact h x (by simp [hx])

theorem AllNormal.leaf {text : String} {trees : List License} (h : AllNormal trees)
    (hid : IsIdentifier text) : AllNormal (.leaf text :: trees) := by
  have hleaf : Normal (.leaf text) := Normal.leaf ⟨text, hid⟩ []
  simpa [AllNormal] using ⟨hleaf, h⟩

theorem AllNormal.glue {text exception : String} {trees : List License}
    (h : AllNormal (.leaf text :: trees)) (hid : IsIdentifier exception) :
    AllNormal (.leaf (text ++ withSeparator ++ exception) :: trees) := by
  intro x hx
  rcases List.mem_cons.1 hx with rfl | hx
  · exact (h (.leaf text) (by simp)).attach ⟨exception, hid⟩
  · exact h x (by simp [hx])

/-- Reading identifiers keeps all trees normal. -/
theorem AllNormal.runs {ts : List Token} {s s' : Stacks} (h : Runs ts s s')
    (hids : ∀ text, .identifier text ∈ ts → IsIdentifier text) (hs : AllNormal s.trees) :
    AllNormal s'.trees := by
  induction h with
  | done => exact hs
  | identifier _ ih =>
    exact ih (fun text ht => hids text (by simp [ht])) (hs.leaf (hids _ (by simp)))
  | openGroup _ ih => exact ih (fun text ht => hids text (by simp [ht])) hs
  | closeGroup hj _ ih =>
    exact ih (fun text ht => hids text (by simp [ht])) (joinTops_keeps AllNormal.joinTop hs hj)
  | operator _ _ hj _ ih =>
    exact ih (fun text ht => hids text (by simp [ht])) (joinTops_keeps AllNormal.joinTop hs hj)
  | glue _ ih =>
    exact ih (fun text ht => hids text (by simp [ht])) (hs.glue (hids _ (by simp)))

/-- Every tree that is read is normal. -/
theorem normal_of_parse {text : String} {tree : License} (h : parse text = some tree) :
    Normal tree := by
  obtain ⟨trees, ops, hrun, hj⟩ := treesOf_eq_some_iff.1 (ofTokens_eq_some_iff.1 h)
  -- The release at the end joins like every other release.
  have htrees : AllNormal trees :=
    AllNormal.runs hrun (fun _ => isIdentifier_of_mem_scan) (by simp [AllNormal, Stacks.empty])
  have hleft : AllNormal [tree] := joinTops_keeps AllNormal.joinTop htrees hj
  exact hleft tree (by simp)

end BillOfMaterials.License

/-- A declaration is read as a text, so its tree is normal, too. -/
theorem BillOfMaterials.LicenseInput.normal_of_parse {input : LicenseInput} {tree : License}
    (h : input.parse = some tree) : License.Normal tree := by
  obtain ⟨text, -, htree⟩ := Option.bind_eq_some_iff.1 h
  exact License.normal_of_parse htree
