import BillOfMaterials.Proofs.License.Layout
import BillOfMaterials.Proofs.License.Reading

/-! # How groups nest

    Nothing in the reader counts parentheses: a group is a mark on the stack of
    what waits.  The marks are the count.

    * `depthAfter` follows the nesting of parentheses through the words.
    * `depthAfter_of_runs`: the marks on the stack count the depth.
    * `depthAfter_of_treesOf`: what can be read closes what it opens. -/

namespace BillOfMaterials.License

open Stacks

/-! ## Depth -/

/-- How many groups are open after the words `ts` when `depth` were open before
    them: none if a group is closed that was never opened. -/
def depthAfter : Nat → List Token → Option Nat
  | depth, [] => some depth
  | depth, .openGroup :: rest => depthAfter (depth + 1) rest
  | 0, .closeGroup :: _ => none
  | depth + 1, .closeGroup :: rest => depthAfter depth rest
  | depth, _ :: rest => depthAfter depth rest

@[simp] theorem depthAfter_nil (depth : Nat) : depthAfter depth [] = some depth := by
  simp [depthAfter]

@[simp] theorem depthAfter_openGroup (depth : Nat) (ts : List Token) :
    depthAfter depth (.openGroup :: ts) = depthAfter (depth + 1) ts := by
  simp [depthAfter]

@[simp] theorem depthAfter_zero_closeGroup (ts : List Token) :
    depthAfter 0 (.closeGroup :: ts) = none := by
  simp [depthAfter]

@[simp] theorem depthAfter_succ_closeGroup (depth : Nat) (ts : List Token) :
    depthAfter (depth + 1) (.closeGroup :: ts) = depthAfter depth ts := by
  simp [depthAfter]

theorem depthAfter_cons_of_not_isGroup {t : Token} (h : t.isGroup = false) (depth : Nat)
    (ts : List Token) : depthAfter depth (t :: ts) = depthAfter depth ts := by
  cases t with
  | openGroup | closeGroup => simp [Token.isGroup] at h
  | _ => cases depth <;> rfl

/-! ## The marks on the stack -/

/-- How many groups wait to be closed. -/
def groups (waiting : List Waiting) : Nat := waiting.count .group

@[simp] theorem groups_group (waiting : List Waiting) :
    groups (.group :: waiting) = groups waiting + 1 := by
  simp [groups]

@[simp] theorem groups_operator (p : Polarity) (waiting : List Waiting) :
    groups (.operator p :: waiting) = groups waiting := by
  simp [groups]

@[simp] theorem groups_append (ops : List Polarity) (waiting : List Waiting) :
    groups (ops.map .operator ++ waiting) = groups waiting := by
  induction ops with
  | nil => rfl
  | cons p ops ih => simpa using ih

/-- The marks on the stack count the depth. -/
theorem depthAfter_of_runs {ts : List Token} {s s' : Stacks} (h : Runs ts s s') :
    depthAfter (groups s.waiting) ts = some (groups s'.waiting) := by
  induction h with
  | done => exact depthAfter_nil _
  | identifier _ ih => rwa [depthAfter_cons_of_not_isGroup rfl]
  | openGroup _ ih => simpa using ih
  | closeGroup _ _ ih => simpa using ih
  | operator _ _ _ _ ih =>
    -- A release takes operators only, never a mark.
    rw [depthAfter_cons_of_not_isGroup rfl, groups_append]
    simpa using ih
  | glue _ ih => rwa [depthAfter_cons_of_not_isGroup rfl, depthAfter_cons_of_not_isGroup rfl]

/-- What can be read closes what it opens. -/
theorem depthAfter_of_treesOf {ts : List Token} {left : List License}
    (h : treesOf ts = some left) : depthAfter 0 ts = some 0 := by
  obtain ⟨trees, ops, hrun, -⟩ := treesOf_eq_some_iff.1 h
  -- A mark that is left over could not be released at the end.
  have hgroups : groups (ops.map Waiting.operator) = 0 := by
    simpa [groups] using groups_append ops []
  have := depthAfter_of_runs hrun
  rwa [hgroups] at this

end BillOfMaterials.License
