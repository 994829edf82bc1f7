import BillOfMaterials.License.Parser

/-! # What reading does to the stacks

    The reader is a machine with two stacks.  What is below the words being
    read never matters to them, and what they leave behind is told apart in
    two parts: the trees they add, and the operators that still wait for a
    later word to release them.

    * `joinTops` releases waiting operators one after another; the three
      releases of the reader are told through it.
    * `Runs` is reading as a relation, with one rule for each kind of word;
      `run_eq_some_iff` is the only place where the steps are opened.
    * `Runs.frame`: words that can be read alone are read in the same way
      inside a group.
    * `Reads P ts trees` says that reading `ts` adds `trees`, with waiting
      operators only of the class `P`.
    * `Reads.operator` and `reads_chain`: operands between operators of one
      polarity are joined from the left. -/

namespace BillOfMaterials.License

/-! ## Leaves -/

/-- A license with the exceptions that are glued to it. -/
def glued (text : String) (exceptions : List String) : String :=
  exceptions.foldl (fun text e => text ++ withSeparator ++ e) text

/-- The words of such a license. -/
def gluedWords (text : String) (exceptions : List String) : List Token :=
  .identifier text :: exceptions.flatMap fun e => [.exception, .identifier e]

namespace Stacks

/-! ## Releasing operators -/

/-- Releases the operators `ops`, first to last. -/
def joinTops : List Polarity → List License → Option (List License)
  | [], trees => some trees
  | p :: ops, trees => (joinTop p trees).bind (joinTops ops)

@[simp] theorem joinTops_nil (trees : List License) : joinTops [] trees = some trees := rfl

theorem joinTops_append (ops ops' : List Polarity) (trees : List License) :
    joinTops (ops ++ ops') trees = (joinTops ops trees).bind (joinTops ops') := by
  induction ops generalizing trees with
  | nil => rfl
  | cons p ops ih =>
    simp only [List.cons_append, joinTops, Option.bind_assoc]
    congr 1
    funext t
    exact ih t

/-- What one join keeps, any number of them keeps. -/
theorem joinTops_keeps {I : List License → Prop}
    (hI : ∀ {p trees joined}, I trees → joinTop p trees = some joined → I joined)
    {ops : List Polarity} {trees left : List License} (h : I trees)
    (hj : joinTops ops trees = some left) : I left := by
  induction ops generalizing trees with
  | nil =>
    obtain rfl : trees = left := by simpa using hj
    exact h
  | cons p ops ih =>
    obtain ⟨joined, hjoin, hrest⟩ := Option.bind_eq_some_iff.1 hj
    exact ih (hI h hjoin) hrest

/-- A join takes the two topmost trees. -/
theorem joinTop_eq_some {p : Polarity} {trees joined : List License}
    (h : joinTop p trees = some joined) :
    ∃ right left rest, trees = right :: left :: rest ∧ joined = join p left right :: rest := by
  match trees with
  | [] | [_] => simp [joinTop] at h
  | right :: left :: rest => exact ⟨right, left, rest, rfl, by simpa [joinTop] using h.symm⟩

/-- A join makes one tree of two. -/
theorem length_joinTop {p : Polarity} {trees joined : List License}
    (h : joinTop p trees = some joined) : joined.length + 1 = trees.length := by
  obtain ⟨right, left, rest, rfl, rfl⟩ := joinTop_eq_some h
  rfl

theorem length_joinTops {ops : List Polarity} {trees left : List License}
    (h : joinTops ops trees = some left) : left.length + ops.length = trees.length := by
  induction ops generalizing trees with
  | nil =>
    obtain rfl : trees = left := by simpa using h
    rfl
  | cons p ops ih =>
    obtain ⟨joined, hjoin, hrest⟩ := Option.bind_eq_some_iff.1 h
    have hone := length_joinTop hjoin
    have hmore := ih hrest
    rw [List.length_cons]
    omega

theorem joinTop_frame {p : Polarity} {trees joined : List License}
    (h : joinTop p trees = some joined) (below : List License) :
    joinTop p (trees ++ below) = some (joined ++ below) := by
  obtain ⟨right, left, rest, rfl, rfl⟩ := joinTop_eq_some h
  rfl

theorem joinTops_frame {ops : List Polarity} {trees left : List License}
    (h : joinTops ops trees = some left) (below : List License) :
    joinTops ops (trees ++ below) = some (left ++ below) := by
  induction ops generalizing trees with
  | nil =>
    obtain rfl : trees = left := by simpa using h
    rfl
  | cons p ops ih =>
    obtain ⟨joined, hj, hrest⟩ := Option.bind_eq_some_iff.1 h
    simp [joinTops, joinTop_frame hj, ih hrest]

/-- An operator `q` that waits is released by an operator `p` read after it. -/
def ReleasedBy (p q : Polarity) : Prop := q = .all ∨ p = .any

/-- An operator `q` that binds tighter than `p`. -/
def Tighter (p q : Polarity) : Prop := q = .all ∧ p = .any

theorem releasedBy_self (p : Polarity) : ReleasedBy p p := by
  cases p
  · exact .inl rfl
  · exact .inr rfl

theorem Tighter.releasedBy {p q : Polarity} (h : Tighter p q) : ReleasedBy p q := .inl h.1

/-- No operator of the class `P` waits on top. -/
def Blocks (P : Polarity → Prop) (waiting : List Waiting) : Prop :=
  ∀ q, waiting.head? = some (.operator q) → ¬ P q

@[simp] theorem blocks_nil (P : Polarity → Prop) : Blocks P [] := by
  simp [Blocks]

@[simp] theorem blocks_group (P : Polarity → Prop) (waiting : List Waiting) :
    Blocks P (.group :: waiting) := by
  simp [Blocks]

theorem Blocks.mono {P Q : Polarity → Prop} {waiting : List Waiting} (h : Blocks Q waiting)
    (hPQ : ∀ q, P q → Q q) : Blocks P waiting :=
  fun q hq hP => h q hq (hPQ q hP)

/-- A group below changes nothing. -/
theorem Blocks.append_group {P : Polarity → Prop} {waiting : List Waiting}
    (h : Blocks P waiting) (below : List Waiting) : Blocks P (waiting ++ .group :: below) := by
  cases waiting with
  | nil => exact blocks_group P below
  | cons => exact h

theorem blocks_tighter_self (p : Polarity) (waiting : List Waiting) :
    Blocks (Tighter p) (.operator p :: waiting) := by
  intro q hq
  obtain rfl : p = q := by simpa using hq
  rintro ⟨rfl, h⟩
  cases h

theorem releaseFor_of_blocks {p : Polarity} {waiting : List Waiting}
    (h : Blocks (ReleasedBy p) waiting) (trees : List License) :
    releaseFor p trees waiting = some { trees, waiting } := by
  cases waiting with
  | nil => simp [releaseFor]
  | cons w waiting =>
    cases w with
    | group => simp [releaseFor]
    | operator q =>
      have hq : ¬ (q = .all ∨ p = .any) := h q rfl
      simp [releaseFor, hq]

theorem releaseFor_append {p : Polarity} {ops : List Polarity} {waiting : List Waiting}
    (hops : ∀ q ∈ ops, ReleasedBy p q) (h : Blocks (ReleasedBy p) waiting)
    (trees : List License) :
    releaseFor p trees (ops.map .operator ++ waiting) =
      (joinTops ops trees).map fun trees => { trees, waiting } := by
  -- Each released operator joins first, so the trees change from step to step.
  induction ops generalizing trees with
  | nil => exact releaseFor_of_blocks h trees
  | cons q ops ih =>
    have hq : q = .all ∨ p = .any := hops q (by simp)
    have ih := ih fun r hr => hops r (by simp [hr])
    cases hj : joinTop q trees with
    | none => simp [releaseFor, hq, joinTops, hj]
    | some joined => simp [releaseFor, hq, joinTops, hj, ih]

theorem releaseGroup_append (ops : List Polarity) (waiting : List Waiting)
    (trees : List License) :
    releaseGroup trees (ops.map .operator ++ .group :: waiting) =
      (joinTops ops trees).map fun trees => { trees, waiting } := by
  induction ops generalizing trees with
  | nil => simp [releaseGroup]
  | cons q ops ih =>
    cases hj : joinTop q trees with
    | none => simp [releaseGroup, joinTops, hj]
    | some joined => simp [releaseGroup, joinTops, hj, ih]

theorem releaseAll_map (ops : List Polarity) (trees : List License) :
    releaseAll trees (ops.map .operator) = joinTops ops trees := by
  induction ops generalizing trees with
  | nil => rfl
  | cons q ops ih =>
    cases hj : joinTop q trees with
    | none => simp [releaseAll, joinTops, hj]
    | some joined => simp [releaseAll, joinTops, hj, ih]

/-- An operator releases those on top of the first that it does not release. -/
theorem releaseFor_eq_some {p : Polarity} {trees : List License} {waiting : List Waiting}
    {s : Stacks} (h : releaseFor p trees waiting = some s) :
    ∃ ops : List Polarity, waiting = ops.map .operator ++ s.waiting ∧
      (∀ q ∈ ops, ReleasedBy p q) ∧ Blocks (ReleasedBy p) s.waiting ∧
      joinTops ops trees = some s.trees := by
  induction waiting generalizing trees with
  | nil =>
    obtain rfl : ({ trees, waiting := [] } : Stacks) = s := by simpa [releaseFor] using h
    exact ⟨[], rfl, by simp, blocks_nil _, rfl⟩
  | cons w waiting ih =>
    cases w with
    | group =>
      obtain rfl : ({ trees, waiting := .group :: waiting } : Stacks) = s := by
        simpa [releaseFor] using h
      exact ⟨[], rfl, by simp, blocks_group _ _, rfl⟩
    | operator q =>
      rw [releaseFor] at h
      split at h
      · next hq =>
        obtain ⟨joined, hj, hrest⟩ := Option.bind_eq_some_iff.1 h
        obtain ⟨ops, rfl, hops, hblocks, htrees⟩ := ih hrest
        exact ⟨q :: ops, rfl, by simpa using ⟨hq, hops⟩, hblocks, by simp [joinTops, hj, htrees]⟩
      · next hq =>
        -- The first operator that is not released stays on top.
        obtain rfl : ({ trees, waiting := .operator q :: waiting } : Stacks) = s := by
          simpa using h
        refine ⟨[], rfl, by simp, ?_, rfl⟩
        intro r hr
        obtain rfl : q = r := by simpa using hr
        exact hq

/-- A closing parenthesis releases the operators down to the innermost group. -/
theorem releaseGroup_eq_some {trees : List License} {waiting : List Waiting} {s : Stacks}
    (h : releaseGroup trees waiting = some s) :
    ∃ ops : List Polarity, waiting = ops.map .operator ++ .group :: s.waiting ∧
      joinTops ops trees = some s.trees := by
  induction waiting generalizing trees with
  | nil => simp [releaseGroup] at h
  | cons w waiting ih =>
    cases w with
    | group =>
      obtain rfl : ({ trees, waiting } : Stacks) = s := by simpa [releaseGroup] using h
      exact ⟨[], rfl, rfl⟩
    | operator q =>
      obtain ⟨joined, hj, hrest⟩ := Option.bind_eq_some_iff.1 h
      obtain ⟨ops, rfl, htrees⟩ := ih hrest
      exact ⟨q :: ops, rfl, by simp [joinTops, hj, htrees]⟩

/-- At the end only operators wait, and all of them are released. -/
theorem releaseAll_eq_some {trees left : List License} {waiting : List Waiting}
    (h : releaseAll trees waiting = some left) :
    ∃ ops : List Polarity, waiting = ops.map .operator ∧ joinTops ops trees = some left := by
  induction waiting generalizing trees with
  | nil => exact ⟨[], rfl, h⟩
  | cons w waiting ih =>
    cases w with
    | group => simp [releaseAll] at h
    | operator q =>
      obtain ⟨joined, hj, hrest⟩ := Option.bind_eq_some_iff.1 h
      obtain ⟨ops, rfl, hops⟩ := ih hrest
      exact ⟨q :: ops, rfl, by simp [joinTops, hj, hops]⟩

/-! ## One word after another -/

/-- `Runs ts s s'` says that reading `ts` takes the stacks `s` to `s'`. -/
inductive Runs : List Token → Stacks → Stacks → Prop where
  | done (s : Stacks) : Runs [] s s
  | identifier {text : String} {ts : List Token} {trees : List License}
      {waiting : List Waiting} {s' : Stacks} :
      Runs ts { trees := .leaf text :: trees, waiting } s' →
      Runs (.identifier text :: ts) { trees, waiting } s'
  | openGroup {ts : List Token} {trees : List License} {waiting : List Waiting} {s' : Stacks} :
      Runs ts { trees, waiting := .group :: waiting } s' →
      Runs (.openGroup :: ts) { trees, waiting } s'
  /-- The operators inside the group are released. -/
  | closeGroup {ops : List Polarity} {ts : List Token} {trees left : List License}
      {waiting : List Waiting} {s' : Stacks} :
      joinTops ops trees = some left → Runs ts { trees := left, waiting } s' →
      Runs (.closeGroup :: ts) { trees, waiting := ops.map .operator ++ .group :: waiting } s'
  /-- The operators on top that bind at least as tightly are released. -/
  | operator {p : Polarity} {ops : List Polarity} {ts : List Token}
      {trees left : List License} {waiting : List Waiting} {s' : Stacks} :
      (∀ q ∈ ops, ReleasedBy p q) → Blocks (ReleasedBy p) waiting →
      joinTops ops trees = some left →
      Runs ts { trees := left, waiting := .operator p :: waiting } s' →
      Runs (.operator p :: ts) { trees, waiting := ops.map .operator ++ waiting } s'
  /-- `WITH` and the identifier after it. -/
  | glue {exception text : String} {ts : List Token} {trees : List License}
      {waiting : List Waiting} {s' : Stacks} :
      Runs ts { trees := .leaf (text ++ withSeparator ++ exception) :: trees, waiting } s' →
      Runs (.exception :: .identifier exception :: ts)
        { trees := .leaf text :: trees, waiting } s'

@[simp] theorem run_nil (s : Stacks) : run [] s = some s := by
  simp [run]

theorem run_cons {t : Token} (h : t ≠ .exception) (ts : List Token) (s : Stacks) :
    run (t :: ts) s = (s.step t).bind (run ts) := by
  cases t with
  | exception => exact absurd rfl h
  | _ => rfl

theorem run_exception_identifier (text : String) (ts : List Token) (s : Stacks) :
    run (.exception :: .identifier text :: ts) s = (s.attach text).bind (run ts) := by
  simp [run]

/-- No word but an identifier may follow `WITH`. -/
theorem exists_identifier_of_run_exception {ts : List Token} {s s' : Stacks}
    (h : run (.exception :: ts) s = some s') : ∃ text rest, ts = .identifier text :: rest := by
  cases ts with
  | nil => simp [run] at h
  | cons t ts =>
    cases t with
    | identifier text => exact ⟨text, ts, rfl⟩
    | _ => simp [run, step] at h

theorem attach_eq_some {exception : String} {s s' : Stacks} (h : s.attach exception = some s') :
    ∃ text trees, s.trees = .leaf text :: trees ∧
      s' = { s with trees := .leaf (text ++ withSeparator ++ exception) :: trees } := by
  unfold attach at h
  split at h
  · next text trees htrees =>
    simp only [Option.some.injEq] at h
    exact ⟨text, trees, htrees, h.symm⟩
  · cases h

theorem run_of_runs {ts : List Token} {s s' : Stacks} (h : Runs ts s s') :
    run ts s = some s' := by
  induction h with
  | done => exact run_nil _
  | identifier _ ih => simpa [run_cons, step] using ih
  | openGroup _ ih => simpa [run_cons, step] using ih
  | closeGroup hj _ ih => simpa [run_cons, step, releaseGroup_append, hj] using ih
  | operator hops hblocks hj _ ih =>
    simpa [run_cons, step, releaseFor_append hops hblocks, hj] using ih
  | glue _ ih => simpa [run_exception_identifier, attach] using ih

theorem runs_of_run {s' : Stacks} :
    ∀ {ts : List Token} {s : Stacks}, run ts s = some s' → Runs ts s s'
  | [], s, h => by
    obtain rfl : s = s' := by simpa using h
    exact .done s
  | .exception :: ts, s, h => by
    obtain ⟨exception, rest, rfl⟩ := exists_identifier_of_run_exception h
    rw [run_exception_identifier] at h
    obtain ⟨s₁, hattach, hrest⟩ := Option.bind_eq_some_iff.1 h
    obtain ⟨trees, waiting⟩ := s
    obtain ⟨text, trees, rfl, rfl⟩ := attach_eq_some hattach
    exact .glue (runs_of_run hrest)
  | .identifier text :: ts, ⟨trees, waiting⟩, h => .identifier (runs_of_run h)
  | .openGroup :: ts, ⟨trees, waiting⟩, h => .openGroup (runs_of_run h)
  | .closeGroup :: ts, ⟨trees, waiting⟩, h => by
    rw [run_cons (by simp)] at h
    obtain ⟨s₁, hrelease, hrest⟩ := Option.bind_eq_some_iff.1 h
    obtain ⟨ops, rfl, hj⟩ := releaseGroup_eq_some hrelease
    exact .closeGroup hj (runs_of_run hrest)
  | .operator p :: ts, ⟨trees, waiting⟩, h => by
    rw [run_cons (by simp)] at h
    obtain ⟨s₁, hstep, hrest⟩ := Option.bind_eq_some_iff.1 h
    -- Two steps in one: the release, and the push of the operator itself.
    obtain ⟨released, hrelease, hpush⟩ := Option.bind_eq_some_iff.1 hstep
    obtain ⟨ops, rfl, hops, hblocks, hj⟩ := releaseFor_eq_some hrelease
    simp only [Option.some.injEq] at hpush
    rw [← hpush] at hrest
    exact .operator hops hblocks hj (runs_of_run hrest)

theorem run_eq_some_iff {ts : List Token} {s s' : Stacks} : run ts s = some s' ↔ Runs ts s s' :=
  ⟨runs_of_run, run_of_runs⟩

theorem Runs.append {ts us : List Token} {s s₁ s' : Stacks} (h : Runs ts s s₁)
    (h' : Runs us s₁ s') : Runs (ts ++ us) s s' := by
  induction h with
  | done => exact h'
  | identifier _ ih => exact .identifier (ih h')
  | openGroup _ ih => exact .openGroup (ih h')
  | closeGroup hj _ ih => exact .closeGroup hj (ih h')
  | operator hops hblocks hj _ ih => exact .operator hops hblocks hj (ih h')
  | glue _ ih => exact .glue (ih h')

/-! ## What is below never matters -/

/-- The stacks `s` inside a group that is open on top of `outer`. -/
def inGroup (s outer : Stacks) : Stacks :=
  { trees := s.trees ++ outer.trees, waiting := s.waiting ++ .group :: outer.waiting }

/-- Words that can be read alone are read in the same way inside a group. -/
theorem Runs.frame {ts : List Token} {s s' : Stacks} (h : Runs ts s s') (outer : Stacks) :
    Runs ts (s.inGroup outer) (s'.inGroup outer) := by
  induction h with
  | done s => exact .done _
  | identifier _ ih => exact .identifier ih
  | openGroup _ ih => exact .openGroup ih
  | closeGroup hj _ ih =>
    simpa [inGroup] using Runs.closeGroup (joinTops_frame hj outer.trees) ih
  | operator hops hblocks hj _ ih =>
    -- The mark of the group stops the release before it reaches `outer`.
    have hblocks := hblocks.append_group outer.waiting
    simpa [inGroup] using Runs.operator hops hblocks (joinTops_frame hj outer.trees) ih
  | glue _ ih => exact .glue ih

/-! ## Readings -/

/-- The trees that are left when `ts` is read alone. -/
def treesOf (ts : List Token) : Option (List License) :=
  (run ts empty).bind fun s => releaseAll s.trees s.waiting

theorem treesOf_eq_some_iff {ts : List Token} {left : List License} :
    treesOf ts = some left ↔ ∃ (trees : List License) (ops : List Polarity),
      Runs ts empty { trees, waiting := ops.map .operator } ∧ joinTops ops trees = some left := by
  constructor
  · intro h
    obtain ⟨⟨trees, waiting⟩, hrun, hleft⟩ := Option.bind_eq_some_iff.1 h
    obtain ⟨ops, rfl, hj⟩ := releaseAll_eq_some hleft
    exact ⟨trees, ops, run_eq_some_iff.1 hrun, hj⟩
  · rintro ⟨trees, ops, hrun, hj⟩
    simp [treesOf, run_eq_some_iff.2 hrun, releaseAll_map, hj]

theorem ofTokens_eq_some_iff {ts : List Token} {tree : License} :
    ofTokens ts = some tree ↔ treesOf ts = some [tree] := by
  have hfinish : ∀ s : Stacks, s.finish = some tree ↔ releaseAll s.trees s.waiting = some [tree] := by
    intro s
    cases hleft : releaseAll s.trees s.waiting with
    | none => simp [finish, hleft]
    | some left =>
      match left with
      | [] | [_] | _ :: _ :: _ => simp [finish, hleft]
  cases hrun : run ts empty with
  | none => simp [ofTokens, treesOf, hrun]
  | some s => simpa [ofTokens, treesOf, hrun] using hfinish s

/-- Reading `ts` on stacks whose top does not wait with an operator of the class
    `P` adds the trees `trees`, up to the release of operators of that class. -/
def Reads (P : Polarity → Prop) (ts : List Token) (trees : List License) : Prop :=
  ∀ s : Stacks, Blocks P s.waiting → ∃ (read : List License) (ops : List Polarity),
    Runs ts s { trees := read, waiting := ops.map .operator ++ s.waiting } ∧
      (∀ q ∈ ops, P q) ∧ joinTops ops read = some (trees ++ s.trees)

theorem Reads.mono {P Q : Polarity → Prop} {ts : List Token} {trees : List License}
    (h : Reads P ts trees) (hPQ : ∀ q, P q → Q q) : Reads Q ts trees := by
  intro s hs
  obtain ⟨read, ops, hrun, hops, hj⟩ := h s (hs.mono hPQ)
  exact ⟨read, ops, hrun, fun q hq => hPQ q (hops q hq), hj⟩

/-- Words that only add trees and leave no operator waiting. -/
theorem reads_of_runs {ts : List Token} {trees : List License}
    (h : ∀ s : Stacks, Runs ts s { s with trees := trees ++ s.trees })
    (P : Polarity → Prop) : Reads P ts trees :=
  fun s _ => ⟨trees ++ s.trees, [], h s, by simp, rfl⟩

theorem Reads.treesOf_eq {P : Polarity → Prop} {ts : List Token} {trees : List License}
    (h : Reads P ts trees) : treesOf ts = some trees := by
  obtain ⟨read, ops, hrun, -, hj⟩ := h empty (blocks_nil P)
  simp only [empty, List.append_nil] at hrun hj
  exact treesOf_eq_some_iff.2 ⟨read, ops, hrun, hj⟩

/-- **Groups.** Words that can be read alone add the same trees when they stand
    in parentheses, wherever that is. -/
theorem reads_group {ts : List Token} {trees : List License} (h : treesOf ts = some trees)
    (P : Polarity → Prop) : Reads P (.openGroup :: ts ++ [.closeGroup]) trees := by
  apply reads_of_runs
  intro s
  obtain ⟨read, ops, hrun, hj⟩ := treesOf_eq_some_iff.1 h
  -- Inside the group the words leave the same trees and operators as alone, and
  -- the parenthesis releases these operators as the end of the text would.
  have hinside := hrun.frame s
  have hclose : Runs [.closeGroup] (inGroup { trees := read, waiting := ops.map .operator } s)
      { s with trees := trees ++ s.trees } := .closeGroup (joinTops_frame hj s.trees) (.done _)
  exact .openGroup (hinside.append hclose)

/-- **Operators.** An operator between two readings joins the last tree of the
    first with what the second adds. -/
theorem Reads.operator {p : Polarity} {ts us : List Token} {left right joined : List License}
    (hl : Reads (ReleasedBy p) ts left) (hr : Reads (Tighter p) us right)
    (hj : joinTop p (right ++ left) = some joined) :
    Reads (ReleasedBy p) (ts ++ .operator p :: us) joined := by
  intro s hs
  obtain ⟨read, ops, hrun, hops, hleft⟩ := hl s hs
  -- The operator releases what the first operand left waiting, so the second is
  -- read on top of its trees and of the operator itself.
  obtain ⟨read', ops', hrun', hops', hright⟩ :=
    hr { trees := left ++ s.trees, waiting := .operator p :: s.waiting } (blocks_tighter_self p _)
  refine ⟨read', ops' ++ [p], ?_, ?_, ?_⟩
  · have hoperator := Runs.operator hops hs hleft hrun'
    simpa using hrun.append hoperator
  · intro q hq
    rcases List.mem_append.1 hq with hq | hq
    · exact (hops' q hq).releasedBy
    · obtain rfl : q = p := by simpa using hq
      exact releasedBy_self q
  · -- After the second operand's own operators the operator between them joins.
    have hbelow := joinTop_frame hj s.trees
    rw [List.append_assoc] at hbelow
    simp [joinTops_append, hright, joinTops, hbelow]

/-- Further operands are joined to the first from the left. -/
theorem Reads.chain {α : Type} {p : Polarity} {words : α → List Token} {tree : α → License}
    {rest : List α} {ts : List Token} {left : License} (hleft : Reads (ReleasedBy p) ts [left])
    (h : ∀ x ∈ rest, Reads (Tighter p) (words x) [tree x]) :
    Reads (ReleasedBy p) (ts ++ rest.flatMap fun x => .operator p :: words x)
      [(rest.map tree).foldl (join p) left] := by
  induction rest generalizing ts left with
  | nil => simpa using hleft
  | cons x rest ih =>
    -- The first two operands are one reading again, so `ts` and `left` grow.
    have hboth : Reads (ReleasedBy p) (ts ++ .operator p :: words x) [join p left (tree x)] :=
      hleft.operator (h x (by simp)) rfl
    have := ih hboth fun y hy => h y (by simp [hy])
    simpa using this

/-- **Chains.** Operands between operators of one polarity are joined from the
    left. -/
theorem reads_chain {α : Type} {p : Polarity} {words : α → List Token} {tree : α → License}
    {first : α} {rest : List α} (h : ∀ x ∈ first :: rest, Reads (Tighter p) (words x) [tree x]) :
    Reads (ReleasedBy p) (words first ++ rest.flatMap fun x => .operator p :: words x)
      [(rest.map tree).foldl (join p) (tree first)] := by
  have hfirst : Reads (ReleasedBy p) (words first) [tree first] :=
    (h first (by simp)).mono fun _ => Tighter.releasedBy
  exact hfirst.chain fun x hx => h x (by simp [hx])

/-- Exceptions are glued to the license before them, whatever is below it. -/
theorem runs_glue (exceptions : List String) (text : String) (s : Stacks) :
    Runs (exceptions.flatMap fun e => [.exception, .identifier e])
      { s with trees := .leaf text :: s.trees }
      { s with trees := .leaf (glued text exceptions) :: s.trees } := by
  induction exceptions generalizing text with
  | nil => exact .done _
  | cons e exceptions ih => exact .glue (ih _)

theorem reads_glued (P : Polarity → Prop) (text : String) (exceptions : List String) :
    Reads P (gluedWords text exceptions) [.leaf (glued text exceptions)] :=
  reads_of_runs (fun s => .identifier (runs_glue exceptions text s)) P

end Stacks

end BillOfMaterials.License
