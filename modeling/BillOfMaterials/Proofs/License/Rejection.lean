import BillOfMaterials.Proofs.License.Nesting

/-! # What is never read

    Some defects no other word makes up for: a parenthesis without its partner, and
    `WITH` without an identifier after it.

    * `depthAfter_eq_some_iff`: the depth counts what is open, and there is none once
      more is closed than was opened.
    * `exists_identifier_of_runs`: what is read has an identifier after every `WITH`.
    * `parse_eq_none_of_defect`: a text with one of the defects has no tree. -/

namespace BillOfMaterials.License

open Stacks

/-! ## Parentheses -/

theorem forall_prefix_cons {α : Type} {P : List α → Prop} {x : α} {xs : List α} :
    (∀ before, before <+: x :: xs → P before) ↔
      P [] ∧ ∀ before, before <+: xs → P (x :: before) := by
  simp only [List.prefix_cons_iff]
  constructor
  · intro h
    exact ⟨h [] (.inl rfl), fun before hbefore => h (x :: before) (.inr ⟨before, rfl, hbefore⟩)⟩
  · rintro ⟨hnil, hcons⟩ before (rfl | ⟨rest, rfl, hrest⟩)
    · exact hnil
    · exact hcons rest hrest

/-- There is a depth after words if no beginning of them closes more than is open, and
    then it is what was open and opened less what was closed. -/
theorem depthAfter_eq_some_iff {depth final : Nat} {ts : List Token} :
    depthAfter depth ts = some final ↔
      (∀ before, before <+: ts →
        before.count .closeGroup ≤ depth + before.count .openGroup) ∧
      final + ts.count .closeGroup = depth + ts.count .openGroup := by
  induction ts generalizing depth with
  | nil => simp [eq_comm]
  | cons t ts ih =>
    rw [forall_prefix_cons]
    cases t with
    | openGroup => simp [ih, Nat.add_assoc, Nat.add_comm 1]
    | closeGroup =>
      cases depth with
      | zero =>
        -- The parenthesis alone is a beginning that closes too much.
        refine ⟨by simp, ?_⟩
        rintro ⟨⟨-, hbeginning⟩, -⟩
        have hparenthesis := hbeginning [] List.nil_prefix
        simp at hparenthesis
      | succ depth => simp [ih, Nat.add_right_comm depth 1, ← Nat.add_assoc]
    | operator | exception | identifier =>
      rw [depthAfter_cons_of_not_isGroup rfl, ih]
      simp

/-! ## Exceptions -/

/-- What is read has an identifier after every `WITH`. -/
theorem exists_identifier_of_runs {ts after : List Token} {s s' : Stacks} (h : Runs ts s s')
    (hafter : .exception :: after <:+ ts) : ∃ name, after.head? = some (.identifier name) := by
  induction h with
  | done => simp at hafter
  | identifier _ ih | openGroup _ ih | closeGroup _ _ ih | operator _ _ _ _ ih =>
    rcases List.suffix_cons_iff.1 hafter with heq | hafter
    · cases heq
    · exact ih hafter
  | @glue exception _ _ _ _ _ _ ih =>
    rcases List.suffix_cons_iff.1 hafter with heq | hafter
    · cases heq
      exact ⟨exception, rfl⟩
    · -- The identifier and `WITH` are read in one step.
      rcases List.suffix_cons_iff.1 hafter with heq | hafter
      · cases heq
      · exact ih hafter

/-! ## Defects -/

/-- What no other word makes up for. -/
inductive Defect (ts : List Token) : Prop where
  /-- Somewhere more groups have been closed than opened. -/
  | closed {before : List Token} : before <+: ts →
      before.count .openGroup < before.count .closeGroup → Defect ts
  | unbalanced : ts.count .openGroup ≠ ts.count .closeGroup → Defect ts
  /-- `WITH` is the last word, or no identifier follows it. -/
  | dangling {after : List Token} : .exception :: after <:+ ts →
      (∀ name, after.head? ≠ some (.identifier name)) → Defect ts

/-- **Rejection.** A text with a parenthesis without its partner, or with `WITH` without
    an identifier after it, has no tree, whatever its other words are. -/
theorem parse_eq_none_of_defect {text : String} (h : Defect (Token.scan text.toList)) :
    parse text = none := by
  cases htree : parse text with
  | none => rfl
  | some tree =>
    exfalso
    have htrees := ofTokens_eq_some_iff.1 htree
    obtain ⟨hbeginning, htotal⟩ := depthAfter_eq_some_iff.1 (depthAfter_of_treesOf htrees)
    obtain ⟨trees, ops, hrun, -⟩ := treesOf_eq_some_iff.1 htrees
    cases h with
    | closed hbefore hcount =>
      have := hbeginning _ hbefore
      omega
    | unbalanced hcount => omega
    | dangling hafter hhead =>
      obtain ⟨name, hname⟩ := exists_identifier_of_runs hrun hafter
      exact hhead name hname

/-- Each defect among words that would be read without it. -/
theorem parse_eq_none_of_defect_each :
    parse "a) or (b" = none ∧ parse "((a) and b" = none ∧ parse "a with (e)" = none ∧
      parse "a or b WITH" = none := by
  have hbeginning : [.identifier "a", .closeGroup] <+: Token.scan "a) or (b".toList := by decide
  have hgroup : [.exception, .openGroup, .identifier "e", .closeGroup] <:+
      Token.scan "a with (e)".toList := by decide
  have hlast : [.exception] <:+ Token.scan "a or b WITH".toList := by decide
  exact ⟨parse_eq_none_of_defect (.closed hbeginning (by decide)),
    parse_eq_none_of_defect (.unbalanced (by decide)),
    parse_eq_none_of_defect (.dangling hgroup (by simp)),
    parse_eq_none_of_defect (.dangling hlast (by simp))⟩

end BillOfMaterials.License
