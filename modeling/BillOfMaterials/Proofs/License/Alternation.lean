import BillOfMaterials.Proofs.License.Grammar
import BillOfMaterials.Proofs.License.Nesting

/-! # Which accepted expressions the grammar derives

    The reader counts operands only when it releases an operator, so it also
    accepts words in which operands and operators do not take turns, such as
    `AND a b`.  That is the whole difference to the grammar: an expression is
    derived just when it is read and its words take turns.

    * `operandNext` and `operatorNext` say that words take turns.
    * `exists_expr_of_operandNext` builds a derivation from words that take
      turns and nest properly.
    * `derived_iff`: the grammar derives what is read and takes turns. -/

namespace BillOfMaterials.License

open Stacks

/-! ## Taking turns -/

mutual

/-- Operands and operators take turns, and an operand comes first.  A license
    takes one exception. -/
def operandNext : List Token → Bool
  | .identifier _ :: .exception :: .identifier _ :: rest => operatorNext rest
  | .identifier _ :: rest => operatorNext rest
  | .openGroup :: rest => operandNext rest
  | _ => false

/-- Operands and operators take turns, and an operand has just ended. -/
def operatorNext : List Token → Bool
  | [] => true
  | .operator _ :: rest => operandNext rest
  | .closeGroup :: rest => operatorNext rest
  | _ => false

end

theorem operandNext_identifier {ts : List Token} (h : operatorNext ts = true) (text : String) :
    operandNext (.identifier text :: ts) = true := by
  cases ts with
  | nil => simp [operandNext, operatorNext]
  | cons t ts =>
    cases t with
    | exception => simp [operatorNext] at h
    | _ => simpa [operandNext] using h

mutual

theorem Expr.operandNext_words {after : List Token} (h : operatorNext after = true) :
    ∀ e : Expr, operandNext (e.words ++ after) = true
  | .chain first rest => by
    have hrest := Term.operatorNext_furtherWords h rest
    rw [Expr.words, List.append_assoc]
    exact Term.operandNext_words hrest first

theorem Term.operatorNext_furtherWords {after : List Token} (h : operatorNext after = true) :
    ∀ rest : List Term, operatorNext (Term.furtherWords rest ++ after) = true
  | [] => by simpa [Term.furtherWords] using h
  | t :: rest => by
    have hrest := Term.operatorNext_furtherWords h rest
    simpa [Term.furtherWords, operatorNext] using Term.operandNext_words hrest t

theorem Term.operandNext_words {after : List Token} (h : operatorNext after = true) :
    ∀ t : Term, operandNext (t.words ++ after) = true
  | .chain first rest => by
    have hrest := Factor.operatorNext_furtherWords h rest
    rw [Term.words, List.append_assoc]
    exact Factor.operandNext_words hrest first

theorem Factor.operatorNext_furtherWords {after : List Token} (h : operatorNext after = true) :
    ∀ rest : List Factor, operatorNext (Factor.furtherWords rest ++ after) = true
  | [] => by simpa [Factor.furtherWords] using h
  | f :: rest => by
    have hrest := Factor.operatorNext_furtherWords h rest
    simpa [Factor.furtherWords, operatorNext] using Factor.operandNext_words hrest f

theorem Factor.operandNext_words {after : List Token} (h : operatorNext after = true) :
    ∀ f : Factor, operandNext (f.words ++ after) = true
  | .license name none => by simpa [Factor.words] using operandNext_identifier h name.text
  | .license name (some exception) => by simpa [Factor.words, operandNext] using h
  | .group inner => by
    have hclose : operatorNext (.closeGroup :: after) = true := by simpa [operatorNext] using h
    simpa [Factor.words, operandNext] using Expr.operandNext_words hclose inner

end

/-! ## Building a derivation -/

/-- What is open inside one group: the terms before an `OR` that waits for a
    term, and the factors before an `AND` that waits for a factor. -/
structure Frame where
  terms? : Option Expr
  factors? : Option Term

namespace Frame

def empty : Frame := { terms? := none, factors? := none }

def termsWords : Option Expr → List Token
  | none => []
  | some e => e.words ++ [.operator .any]

def factorsWords : Option Term → List Token
  | none => []
  | some t => t.words ++ [.operator .all]

/-- The words read inside the group. -/
def words (frame : Frame) : List Token :=
  termsWords frame.terms? ++ factorsWords frame.factors?

/-- The term that ends with the factor `f`. -/
def term (frame : Frame) (f : Factor) : Term :=
  match frame.factors? with
  | none => .chain f []
  | some (.chain first rest) => .chain first (rest ++ [f])

/-- The expression that ends with the factor `f`. -/
def expr (frame : Frame) (f : Factor) : Expr :=
  match frame.terms? with
  | none => .chain (frame.term f) []
  | some (.chain first rest) => .chain first (rest ++ [frame.term f])

theorem words_term (frame : Frame) (f : Factor) :
    (frame.term f).words = factorsWords frame.factors? ++ f.words := by
  unfold term
  split
  · next h => simp [h, Term.words, Factor.furtherWords, factorsWords]
  · next first rest h => simp [h, Term.words, Factor.furtherWords_eq, factorsWords]

theorem words_expr (frame : Frame) (f : Factor) :
    (frame.expr f).words = frame.words ++ f.words := by
  have hterm := frame.words_term f
  unfold expr
  split
  · next h => simp [h, Expr.words, Term.furtherWords, termsWords, words, hterm]
  · next first rest h =>
    simp [h, Expr.words, Term.furtherWords_eq, termsWords, words, hterm]

/-- The group when an operator of polarity `p` follows the factor `f`: an `AND`
    waits inside the term, an `OR` ends it. -/
def push (frame : Frame) (f : Factor) : Polarity → Frame
  | .all => { frame with factors? := some (frame.term f) }
  | .any => { terms? := some (frame.expr f), factors? := none }

theorem words_push (frame : Frame) (f : Factor) (p : Polarity) :
    (frame.push f p).words = frame.words ++ (f.words ++ [.operator p]) := by
  cases p with
  | all => simp [push, words, factorsWords, words_term]
  | any => simp [push, words, termsWords, factorsWords, words_expr]

end Frame

/-- The words read inside the open groups, the innermost group first. -/
def openWords (frame : Frame) : List Frame → List Token
  | [] => frame.words
  | outer :: more => openWords outer more ++ .openGroup :: frame.words

theorem openWords_append {frame frame' : Frame} {ts : List Token}
    (h : frame'.words = frame.words ++ ts) (outer : List Frame) :
    openWords frame' outer = openWords frame outer ++ ts := by
  cases outer with
  | nil => exact h
  | cons => simp [openWords, h]

/-- After an identifier an exception may follow; else an operand has ended. -/
theorem operatorNext_of_operandNext {text : String} {ts : List Token}
    (h : operandNext (.identifier text :: ts) = true) :
    operatorNext ts = true ∨
      ∃ exception rest, ts = .exception :: .identifier exception :: rest ∧
        operatorNext rest = true := by
  match ts with
  | .exception :: .identifier exception :: rest =>
    exact .inr ⟨exception, rest, rfl, by simpa [operandNext] using h⟩
  | [] => exact .inl rfl
  -- `WITH` before anything but an identifier, or an operand after an operand.
  | [.exception] => simp [operandNext, operatorNext] at h
  | .exception :: .exception :: _ | .exception :: .openGroup :: _
  | .exception :: .closeGroup :: _ | .exception :: .operator _ :: _ =>
    simp [operandNext, operatorNext] at h
  | .identifier _ :: _ | .openGroup :: _ => simp [operandNext, operatorNext] at h
  | .closeGroup :: _ | .operator _ :: _ => exact .inl (by simpa [operandNext] using h)

mutual

/-- The rest of an expression completes a derivation whose open groups wait for
    an operand. -/
theorem exists_expr_of_operandNext (ts : List Token) (frame : Frame) (outer : List Frame)
    (hnext : operandNext ts = true) (hdepth : depthAfter outer.length ts = some 0)
    (hids : ∀ text, .identifier text ∈ ts → IsIdentifier text) :
    ∃ e : Expr, e.words = openWords frame outer ++ ts := by
  match ts with
  | [] | .closeGroup :: _ | .operator _ :: _ | .exception :: _ => simp [operandNext] at hnext
  | .openGroup :: ts =>
    obtain ⟨e, he⟩ := exists_expr_of_operandNext ts .empty (frame :: outer)
      (by simpa [operandNext] using hnext) (by simpa using hdepth)
      fun text h => hids text (by simp [h])
    -- The new group is empty, so it adds its parenthesis only.
    refine ⟨e, he.trans ?_⟩
    simp [openWords, Frame.words, Frame.empty, Frame.termsWords, Frame.factorsWords]
  | .identifier text :: ts =>
    -- An exception belongs to the license, so it is looked for first.
    have hlicense : IsIdentifier text := hids text (by simp)
    rw [depthAfter_cons_of_not_isGroup rfl] at hdepth
    rcases operatorNext_of_operandNext hnext with hnext | ⟨exception, rest, rfl, hnext⟩
    · obtain ⟨e, he⟩ := exists_expr_of_operatorNext ts frame outer (.license ⟨text, hlicense⟩ none)
        hnext hdepth fun text h => hids text (by simp [h])
      exact ⟨e, by simpa [Factor.words] using he⟩
    · have hexception : IsIdentifier exception := hids exception (by simp)
      rw [depthAfter_cons_of_not_isGroup rfl, depthAfter_cons_of_not_isGroup rfl] at hdepth
      obtain ⟨e, he⟩ := exists_expr_of_operatorNext rest frame outer
        (.license ⟨text, hlicense⟩ (some ⟨exception, hexception⟩))
        hnext hdepth fun text h => hids text (by simp [h])
      exact ⟨e, by simpa [Factor.words] using he⟩
termination_by ts.length

/-- The rest of an expression completes a derivation in whose innermost group
    the factor `f` has just ended. -/
theorem exists_expr_of_operatorNext (ts : List Token) (frame : Frame) (outer : List Frame)
    (f : Factor) (hnext : operatorNext ts = true)
    (hdepth : depthAfter outer.length ts = some 0)
    (hids : ∀ text, .identifier text ∈ ts → IsIdentifier text) :
    ∃ e : Expr, e.words = openWords frame outer ++ f.words ++ ts := by
  match ts with
  | .identifier _ :: _ | .openGroup :: _ | .exception :: _ => simp [operatorNext] at hnext
  | [] =>
    -- No group is open at the end, so the innermost frame holds everything.
    cases outer with
    | nil => exact ⟨frame.expr f, by simpa [openWords] using frame.words_expr f⟩
    | cons => simp at hdepth
  | .operator p :: ts =>
    rw [depthAfter_cons_of_not_isGroup rfl] at hdepth
    obtain ⟨e, he⟩ := exists_expr_of_operandNext ts (frame.push f p) outer
      (by simpa [operatorNext] using hnext) hdepth fun text h => hids text (by simp [h])
    refine ⟨e, he.trans ?_⟩
    simp [openWords_append (frame.words_push f p)]
  | .closeGroup :: ts =>
    cases outer with
    | nil => simp at hdepth
    | cons frame' outer =>
      -- The group that ends is a factor of the group around it.
      obtain ⟨e, he⟩ := exists_expr_of_operatorNext ts frame' outer (.group (frame.expr f))
        (by simpa [operatorNext] using hnext) (by simpa using hdepth)
        fun text h => hids text (by simp [h])
      refine ⟨e, he.trans ?_⟩
      simp [openWords, Factor.words, Frame.words_expr]
termination_by ts.length

end

/-- **What the grammar derives.** An expression has a derivation with the tree
    `tree` just when it is read as `tree` and its operands and operators take
    turns. -/
theorem derived_iff (text : String) (tree : License) :
    (∃ e : Expr, e.words = Token.scan text.toList ∧ e.tree = tree) ↔
      parse text = some tree ∧ operandNext (Token.scan text.toList) = true := by
  constructor
  · rintro ⟨e, hwords, rfl⟩
    refine ⟨parse_of_scan hwords.symm, ?_⟩
    have hnext : operandNext (e.words ++ []) = true := e.operandNext_words rfl
    rwa [List.append_nil, hwords] at hnext
  · rintro ⟨hparse, hnext⟩
    have htrees := ofTokens_eq_some_iff.1 hparse
    obtain ⟨e, he⟩ := exists_expr_of_operandNext _ .empty [] hnext
      (depthAfter_of_treesOf htrees) fun _ => isIdentifier_of_mem_scan
    have hwords : e.words = Token.scan text.toList := by
      simpa [openWords, Frame.words, Frame.empty, Frame.termsWords, Frame.factorsWords] using he
    refine ⟨e, hwords, ?_⟩
    have := parse_of_scan hwords.symm
    exact Option.some.inj (this.symm.trans hparse)

/-- An operator may stand before both of its operands, which no derivation
    allows. -/
theorem parse_leading_operator :
    parse "AND a b" = some (.set .all [.leaf "a", .leaf "b"]) ∧
      ¬ ∃ e : Expr, e.words = Token.scan "AND a b".toList := by
  refine ⟨rfl, ?_⟩
  rintro ⟨e, he⟩
  have hnext : operandNext (e.words ++ []) = true := e.operandNext_words rfl
  rw [List.append_nil, he] at hnext
  exact absurd hnext (by decide)

end BillOfMaterials.License
