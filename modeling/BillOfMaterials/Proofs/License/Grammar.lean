import BillOfMaterials.Proofs.License.Layout
import BillOfMaterials.Proofs.License.Reading

/-! # The grammar of license expressions

        expr   := term (OR term)*
        term   := factor (AND factor)*
        factor := IDENT [WITH IDENT] | ( expr )

    `Expr`, `Term` and `Factor` are the derivations.  Each has its words and
    the tree that it means, both by recursion on the derivation and without the
    reader's stacks.

    * `foldl_join`: joining operands from the left builds the set of a chain.
    * `Expr.reads`: reading a derivation's words adds the derivation's tree.
    * `parse_layout`: every layout of a derivation is read as its tree. -/

namespace BillOfMaterials.License

/-! ## Derivations -/

mutual

/-- A chain of terms with `OR` between them. -/
inductive Expr where
  | chain (first : Term) (rest : List Term)

/-- A chain of factors with `AND` between them. -/
inductive Term where
  | chain (first : Factor) (rest : List Factor)

/-- A license, with an exception or without, or an expression in parentheses. -/
inductive Factor where
  | license (name : Identifier) (exception? : Option Identifier)
  | group (inner : Expr)

end

mutual

/-- The words of a derivation. -/
def Expr.words : Expr → List Token
  | .chain first rest => first.words ++ Term.furtherWords rest

/-- Terms with an `OR` before each. -/
def Term.furtherWords : List Term → List Token
  | [] => []
  | term :: rest => .operator .any :: term.words ++ Term.furtherWords rest

def Term.words : Term → List Token
  | .chain first rest => first.words ++ Factor.furtherWords rest

/-- Factors with an `AND` before each. -/
def Factor.furtherWords : List Factor → List Token
  | [] => []
  | factor :: rest => .operator .all :: factor.words ++ Factor.furtherWords rest

def Factor.words : Factor → List Token
  | .license name none => [.identifier name.text]
  | .license name (some exception) =>
    [.identifier name.text, .exception, .identifier exception.text]
  | .group inner => .openGroup :: inner.words ++ [.closeGroup]

end

/-- The tree of a chain of operands: a lone operand stands for itself, and
    several form a set in which an operand of the same polarity is spliced. -/
def gather (p : Polarity) (first : License) : List License → License
  | [] => first
  | rest => .set p ((first :: rest).flatMap (operandsFor p))

mutual

/-- The tree that a derivation means. -/
def Expr.tree : Expr → License
  | .chain first rest => gather .any first.tree (Term.trees rest)

def Term.trees : List Term → List License
  | [] => []
  | term :: rest => term.tree :: Term.trees rest

def Term.tree : Term → License
  | .chain first rest => gather .all first.tree (Factor.trees rest)

def Factor.trees : List Factor → List License
  | [] => []
  | factor :: rest => factor.tree :: Factor.trees rest

def Factor.tree : Factor → License
  | .license name none => .leaf name.text
  | .license name (some exception) => .leaf (name.text ++ " WITH " ++ exception.text)
  | .group inner => inner.tree

end

theorem Term.furtherWords_eq (rest : List Term) :
    Term.furtherWords rest = rest.flatMap fun t => .operator .any :: t.words := by
  induction rest with
  | nil => simp [Term.furtherWords]
  | cons t rest ih => simp [Term.furtherWords, ih]

theorem Factor.furtherWords_eq (rest : List Factor) :
    Factor.furtherWords rest = rest.flatMap fun f => .operator .all :: f.words := by
  induction rest with
  | nil => simp [Factor.furtherWords]
  | cons f rest ih => simp [Factor.furtherWords, ih]

theorem Term.trees_eq_map (rest : List Term) : Term.trees rest = rest.map Term.tree := by
  induction rest with
  | nil => simp [Term.trees]
  | cons t rest ih => simp [Term.trees, ih]

theorem Factor.trees_eq_map (rest : List Factor) : Factor.trees rest = rest.map Factor.tree := by
  induction rest with
  | nil => simp [Factor.trees]
  | cons f rest ih => simp [Factor.trees, ih]

/-- Joining operands from the left builds the set of their chain. -/
theorem foldl_join (p : Polarity) (first : License) (rest : List License) :
    rest.foldl (join p) first = gather p first rest := by
  induction rest generalizing first with
  | nil => rfl
  | cons next rest ih =>
    -- The first two operands are a set already; its parts are spliced again.
    rw [List.foldl_cons, ih]
    cases rest with
    | nil => simp [gather, join]
    | cons => simp [gather, join]

/-! ## Reading derivations -/

open Stacks

mutual

theorem Expr.reads : ∀ e : Expr, Reads (ReleasedBy .any) e.words [e.tree]
  | .chain first rest => by
    have hfirst := first.reads
    have hrest := Term.reads_all rest
    rw [Expr.words, Term.furtherWords_eq, Expr.tree, Term.trees_eq_map, ← foldl_join]
    exact reads_chain fun t ht => by
      rcases List.mem_cons.1 ht with rfl | ht
      · exact hfirst
      · exact hrest t ht

theorem Term.reads_all : ∀ rest : List Term,
    ∀ t ∈ rest, Reads (Tighter .any) t.words [t.tree]
  | [] => by simp
  | t :: rest => by
    have ht := t.reads
    have hrest := Term.reads_all rest
    simpa using ⟨ht, hrest⟩

theorem Term.reads : ∀ t : Term, Reads (Tighter .any) t.words [t.tree]
  | .chain first rest => by
    have hfirst := first.reads
    have hrest := Factor.reads_all rest
    rw [Term.words, Factor.furtherWords_eq, Term.tree, Factor.trees_eq_map, ← foldl_join]
    -- A factor leaves no operator waiting, so it may stand in any class.
    have hchain : Reads (ReleasedBy .all) _ _ := reads_chain fun f hf => by
      rcases List.mem_cons.1 hf with rfl | hf
      · exact hfirst (Tighter .all)
      · exact hrest f hf (Tighter .all)
    -- What an `AND` releases is just what binds tighter than an `OR`.
    exact hchain.mono fun q hq => by simpa [ReleasedBy, Tighter] using hq

theorem Factor.reads_all : ∀ rest : List Factor,
    ∀ f ∈ rest, ∀ P, Reads P f.words [f.tree]
  | [] => by simp
  | f :: rest => by
    have hf := f.reads
    have hrest := Factor.reads_all rest
    simpa using ⟨hf, hrest⟩

theorem Factor.reads : ∀ (f : Factor) (P : Polarity → Prop), Reads P f.words [f.tree]
  | .license name none => fun P => by
    simpa [Factor.words, Factor.tree, glued, gluedWords] using reads_glued P name.text []
  | .license name (some exception) => fun P => by
    simpa [Factor.words, Factor.tree, glued, gluedWords, withSeparator] using
      reads_glued P name.text [exception.text]
  | .group inner => fun P => by
    have hinner := inner.reads
    rw [Factor.words, Factor.tree]
    exact reads_group hinner.treesOf_eq P

end

theorem parse_of_scan {text : String} {e : Expr} (h : Token.scan text.toList = e.words) :
    parse text = some e.tree := by
  rw [parse, h]
  exact ofTokens_eq_some_iff.2 e.reads.treesOf_eq

/-- **Completeness.** Whatever the grammar derives is read as the tree of its
    derivation, in every layout. -/
theorem parse_layout (e : Expr) (text : String) (h : Layout e.words text.toList) :
    parse text = some e.tree :=
  parse_of_scan (scan_of_layout h)

theorem parse_layout_group_and_exception :
    let a : Identifier := ⟨"a", by decide⟩
    let b : Identifier := ⟨"or-b", by decide⟩
    let c : Identifier := ⟨"c+", by decide⟩
    let e : Expr :=
      .chain (.chain (.group (.chain (.chain (.license a none) []) [.chain (.license b none) []]))
        [.license c (some b)]) []
    Layout e.words " (a or\tor-b)AND c+\n with or-b".toList ∧
      parse " (a or\tor-b)AND c+\n with or-b" =
        some (.set .all [.set .any [.leaf "a", .leaf "or-b"], .leaf "c+ WITH or-b"]) := by
  intro a b c e
  have h : Layout e.words " (a or\tor-b)AND c+\n with or-b".toList := by
    show Layout _ ([' '] ++ ['('] ++ ([] ++ "a".toList ++ ([' '] ++ "or".toList ++
      (['\t'] ++ "or-b".toList ++ ([] ++ [')'] ++ ([] ++ "AND".toList ++ ([' '] ++ "c+".toList ++
      (['\n', ' '] ++ "with".toList ++ ([' '] ++ "or-b".toList ++ [])))))))))
    exact .word rfl .openGroup (by simp [Token.isGroup]) <|
      .word rfl (.identifier a) (fun _ => by decide) <|
      .word rfl (.smallOperator .any) (fun _ => by decide) <|
      .word rfl (.identifier b) (fun _ => by decide) <|
      .word rfl .closeGroup (by simp [Token.isGroup]) <|
      .word rfl (.capitalOperator .all) (fun _ => by decide) <|
      .word rfl (.identifier c) (fun _ => by decide) <|
      .word rfl .smallWith (fun _ => by decide) <|
      .word rfl (.identifier b) (fun _ => by decide) <| .done rfl
  exact ⟨h, parse_layout e _ h⟩

end BillOfMaterials.License
