import Mathlib.Data.Set.Function
import Propositional.Proofs.Cursors
import Propositional.Proofs.Diagnoses
import Propositional.Proofs.Lockstep

/-!
# Expressions that are written down differently

Where the tokens of an expression stand, how its operators are spelled, and what its variables are
called is of no consequence to how it is read.

* `Token.Renamed` — two tokens of the same class; identifiers may have different names.
* `Formula.rename` — a formula with other names; `Formula.ofPolish_rename` builds it.
* `shown_rowOf_rename` — the rows of a renamed formula show the same.
* `SameTables`, `SameSpan` — what two readings, and two errors, have in common.
* `ofTokens_renamed` — two sequences of tokens are read alike.
* `span_not_of_tokens` — what is left out: errors that do not point to tokens.
-/

namespace Propositional

/-! ## Tokens and formulas under a renaming -/

/-- Two tokens of the same class. If they are identifiers, the second has the new name of the
first. -/
structure Token.Renamed (ρ : String → String) (t t' : Token) : Prop where
  cls : t'.cls = t.cls
  value : t.role = .identifier → t'.value = ρ t.value

/-- The formula with new names for its variables. -/
def Formula.rename (ρ : String → String) : Formula → Formula
  | var name => var (ρ name)
  | unary k f => unary k (f.rename ρ)
  | binary k l r => binary k (l.rename ρ) (r.rename ρ)
  | foreign v => foreign v

section

variable {ρ : String → String}

theorem Token.Renamed.role {t t' : Token} (h : t.Renamed ρ t') : t'.role = t.role :=
  congrArg TokenClass.role h.cls

theorem Token.Renamed.name? {t t' : Token} (h : t.Renamed ρ t') : t'.name? = t.name?.map ρ := by
  unfold Token.name?
  rw [h.role]
  by_cases hr : t.role = .identifier
  · simp [hr, h.value hr]
  · simp [hr]

theorem identifiers_renamed {tokens tokens' : List Token}
    (h : List.Forall₂ (Token.Renamed ρ) tokens tokens') :
    identifiers tokens' = (identifiers tokens).map ρ := by
  induction h with
  | nil => rfl
  | cons ht _ ih =>
    unfold identifiers at *
    rw [List.filterMap_cons, List.filterMap_cons, ht.name?, ih]
    cases Token.name? _ <;> rfl

theorem beforeEnd_renamed {tokens tokens' : List Token}
    (h : List.Forall₂ (Token.Renamed ρ) tokens tokens') :
    List.Forall₂ (Token.Renamed ρ) (beforeEnd tokens) (beforeEnd tokens') := by
  induction h with
  | nil => exact .nil
  | @cons t t' _ _ ht _ ih =>
    unfold beforeEnd at *
    rw [List.takeWhile_cons, List.takeWhile_cons, ht.role]
    split
    · exact .cons ht ih
    · exact .nil

/-- What a token does to renamed formulas is what it does to the formulas, renamed. -/
theorem Formula.build_rename {t t' : Token} (h : t.Renamed ρ t') (stack : List Formula) :
    build (stack.map (rename ρ)) t' = (build stack t).map (List.map (rename ρ)) := by
  unfold build
  rw [h.role]
  cases hr : t.role with
  | identifier =>
    rw [h.value hr]
    rfl
  | operator op =>
    by_cases harity : op.kind.arity = 1
    · simp only [harity, if_true]
      rcases stack with _ | ⟨f, rest⟩ <;> rfl
    · simp only [harity, if_false]
      rcases stack with _ | ⟨r, _ | ⟨l, rest⟩⟩ <;> rfl
  | _ => rfl

theorem Formula.foldlM_build_rename {tokens tokens' : List Token}
    (h : List.Forall₂ (Token.Renamed ρ) tokens tokens') : ∀ stack : List Formula,
      tokens'.foldlM build (stack.map (rename ρ)) =
        (tokens.foldlM build stack).map (List.map (rename ρ)) := by
  induction h with
  | nil => exact fun _ => rfl
  | cons ht _ ih =>
    intro stack
    rw [List.foldlM_cons, List.foldlM_cons, build_rename ht]
    cases build stack _ with
    | error e => rfl
    | ok next => exact ih next

/-- **Renamed tokens in reverse Polish notation build the renamed formula.** -/
theorem Formula.ofPolish_rename {tokens tokens' : List Token}
    (h : List.Forall₂ (Token.Renamed ρ) tokens tokens') :
    ofPolish tokens' = (ofPolish tokens).map (rename ρ) := by
  unfold ofPolish
  have hstack := foldlM_build_rename h []
  rw [List.map_nil] at hstack
  rw [hstack]
  cases tokens.foldlM build [] with
  | error e => rfl
  | ok stack => rcases stack with _ | ⟨f, _ | ⟨g, rest⟩⟩ <;> simp [Except.map, bind, Except.bind]

/-! ## Variables -/

theorem NameSet.contains_map {names : List String} {s s' : NameSet} {name : String}
    (hinj : Set.InjOn ρ {x | x ∈ names}) (hmap : s'.names = s.names.map ρ)
    (hs : ∀ x ∈ s.names, x ∈ names) (hname : name ∈ names) :
    s'.contains (ρ name) = s.contains name := by
  rw [Bool.eq_iff_iff, contains_iff, contains_iff, hmap]
  constructor
  · intro h
    obtain ⟨x, hx, heq⟩ := List.mem_map.mp h
    rwa [← hinj (hs x hx) hname heq]
  · exact List.mem_map_of_mem

theorem NameSet.add_map {names : List String} {s s' : NameSet} {name : String}
    (hinj : Set.InjOn ρ {x | x ∈ names}) (hmap : s'.names = s.names.map ρ)
    (hs : ∀ x ∈ s.names, x ∈ names) (hname : name ∈ names) :
    (s'.add (ρ name)).names = (s.add name).names.map ρ := by
  have hcontains := contains_map hinj hmap hs hname
  unfold NameSet.add
  rw [hcontains]
  cases s.contains name with
  | true => exact hmap
  | false => simp [hmap]

/-- Names that are told apart after the renaming are collected in the same order. -/
theorem NameSet.addAll_map {names : List String} (hinj : Set.InjOn ρ {x | x ∈ names}) :
    ∀ (more : List String) {s s' : NameSet}, s'.names = s.names.map ρ →
      (∀ x ∈ s.names, x ∈ names) → (∀ x ∈ more, x ∈ names) →
        (s'.addAll (more.map ρ)).names = (s.addAll more).names.map ρ
  | [], s, s', hmap, _, _ => hmap
  | name :: more, s, s', hmap, hs, hmore => by
    obtain ⟨hname, hmore⟩ := List.forall_mem_cons.mp hmore
    have hadd : ∀ x ∈ (s.add name).names, x ∈ names := by
      intro x hx
      rcases mem_add hx with hx | rfl
      · exact hs x hx
      · exact hname
    have hstep : (s'.add (ρ name)).names = (s.add name).names.map ρ := add_map hinj hmap hs hname
    exact addAll_map hinj more hstep hadd hmore

theorem NameSet.ofList_map {names : List String} (hinj : Set.InjOn ρ {x | x ∈ names}) :
    (NameSet.ofList (names.map ρ)).names = (NameSet.ofList names).names.map ρ :=
  addAll_map hinj names rfl (List.forall_mem_nil _) fun _ h => h

/-! ## Rows -/

/-- What a row shows: its number, its digits and its result. -/
def Row.shown (row : Row) : Nat × List Bool × Bool := (row.index, row.assignment.bits, row.result)

/-- A renamed formula holds if the formula holds when the old names have the values of the new. -/
theorem Formula.holds_rename (σ : String → Bool) : ∀ f : Formula,
    (f.rename ρ).Holds σ ↔ f.Holds (σ ∘ ρ)
  | var name => Iff.rfl
  | unary k f => by
    have hf := holds_rename σ f
    cases k <;> simp [rename, Holds, hf]
  | binary k l r => by
    have hl := holds_rename σ l
    have hr := holds_rename σ r
    cases k <;> simp [rename, Holds, hl, hr]
  | foreign v => by simp [rename, Holds]

/-- **The rows of a renamed formula show the same** as those of the formula, if the new names of its
columns are distinct. -/
theorem shown_rowOf_rename {f : Formula} {names : List String} (hnodup : (names.map ρ).Nodup)
    (hf : f.CoveredBy names) (hf' : (f.rename ρ).CoveredBy (names.map ρ)) (i : Nat) :
    (rowOf (f.rename ρ) (names.map ρ) i).shown = (rowOf f names i).shown := by
  have hbits : (rowOf (f.rename ρ) (names.map ρ) i).assignment.bits =
      (rowOf f names i).assignment.bits := by
    simp [rowOf, assignmentAt, Assignment.bits]
  obtain ⟨σ, hσ⟩ := exists_valuation hnodup
    (Assignment.length_bits (rowOf (f.rename ρ) (names.map ρ) i).assignment)
  -- an old name has the value that the digits give to its new name
  have hcomp : (rowOf f names i).assignment.bits = names.map (σ ∘ ρ) := by
    rw [← hbits, hσ, List.map_map]
  have hresult : (rowOf (f.rename ρ) (names.map ρ) i).result = (rowOf f names i).result := by
    rw [Bool.eq_iff_iff, rowOf_result hf'.mem hσ, rowOf_result hf.mem hcomp, Formula.holds_rename]
  unfold Row.shown
  rw [hbits, hresult]
  rfl

/-- Under every limit both readings have too many variables, or the rows of their tables show the
same. -/
def SameTables (r r' : Reading) : Prop :=
  ∀ (text text' : String) (limit : Int),
    (∃ e, Table.ofReading text r limit = .error e ∧ Table.ofReading text' r' limit = .error e) ∨
    ∃ t t' rows rows', Table.ofReading text r limit = .ok t ∧
      Table.ofReading text' r' limit = .ok t' ∧ t.rows = .ok rows ∧ t'.rows = .ok rows' ∧
      rows.map Row.shown = rows'.map Row.shown

theorem sameTables_of_rename {r r' : Reading} (hformula : r'.formula = r.formula.rename ρ)
    (hnames : r'.names.names = r.names.names.map ρ) (hnodup : r'.names.names.Nodup)
    (hf : r.formula.CoveredBy r.names.names) (hf' : r'.formula.CoveredBy r'.names.names) :
    SameTables r r' := by
  intro text text' limit
  have hlength : r'.names.names.length = r.names.names.length := by rw [hnames, List.length_map]
  unfold Table.ofReading Table.make Columns.names checkCount
  rw [hlength]
  by_cases hlimit : limit < r.names.names.length
  · rw [if_pos hlimit]
    exact .inl ⟨_, rfl, rfl⟩
  · rw [if_neg hlimit]
    have hrows := allRows_eq hf.proper hf.mem
    have hrows' := allRows_eq hf'.proper hf'.mem
    refine .inr ⟨_, _, _, _, rfl, rfl, hrows, hrows', ?_⟩
    show List.map Row.shown (List.map _ (List.range (2 ^ r.names.names.length))) =
      List.map Row.shown (List.map _ (List.range (2 ^ r'.names.names.length)))
    rw [hlength, List.map_map, List.map_map]
    refine List.map_congr_left fun i _ => ?_
    rw [hnames] at hf' hnodup
    rw [hformula] at hf'
    show (rowOf r.formula r.names.names i).shown = (rowOf r'.formula r'.names.names i).shown
    rw [hformula, hnames]
    exact (shown_rowOf_rename hnodup hf hf' i).symm

/-! ## Errors -/

/-- The tokens stand in the same place of two sequences. -/
def InSamePlace (tokens tokens' : List Token) (t t' : Token) : Prop :=
  ∃ i : Nat, tokens[i]? = some t ∧ tokens'[i]? = some t'

/-- The places where tokens of the same place end. Without any tokens, it is the beginning. -/
def EndInSamePlace (tokens tokens' : List Token) (n n' : Int) : Prop :=
  (∃ t t', InSamePlace tokens tokens' t t' ∧ n = t.stop ∧ n' = t'.stop) ∨
    tokens = [] ∧ n = 0 ∧ n' = 0

/-- The spans of two errors begin and end with tokens of the same places. Only the span of an
expression without any tokens but opening parentheses begins at the beginning; without any tokens at
all it ends there, too. -/
structure SameSpan (tokens tokens' : List Token) (e e' : ParseError) : Prop where
  start : (∃ t ∈ beforeEnd tokens, t.role ≠ .opening) →
    ∃ t t', InSamePlace tokens tokens' t t' ∧ e.start = t.start ∧ e'.start = t'.start
  stop : tokens ≠ [] →
    ∃ t t', InSamePlace tokens tokens' t t' ∧ e.stop = t.stop ∧ e'.stop = t'.stop
  openings : (∀ t ∈ beforeEnd tokens, t.role = .opening) →
    e.kind = .emptyExpression ∧ e.start = 0 ∧ e'.start = 0
  nothing : tokens = [] → e.stop = 0 ∧ e'.stop = 0

theorem sameSpan_of_alike {tokens tokens' : List Token} {e e' : ParseError}
    (h : e.Alike (InSamePlace tokens tokens') (EndInSamePlace tokens tokens') e')
    (hp : Polish.ofTokens tokens = .error (.parse e)) : SameSpan tokens tokens' e e' := by
  have hstop : EndInSamePlace tokens tokens' e.stop e'.stop := h.stop.elim .inl id
  refine ⟨fun hsome => ?_, fun hne => ?_, fun hall => ?_, ?_⟩
  · rcases h.start with hsame | ⟨n, n', rfl, rfl⟩
    · exact hsame
    · obtain ⟨t, ht, hrole⟩ := hsome
      exact absurd (Yard.run_emptyExpression_iff.mp ⟨n, hp⟩ t ht) hrole
  · exact hstop.resolve_right fun hnil => hne hnil.1
  · obtain ⟨n, hn⟩ := Yard.run_emptyExpression_iff.mpr hall
    obtain rfl : e = .emptyExpression n := ReadError.parse.inj (Except.error.inj (hp.symm.trans hn))
    cases h
    exact ⟨rfl, rfl, rfl⟩
  · rintro rfl
    rcases hstop with ⟨t, t', ⟨i, hi, -⟩, -⟩ | ⟨-, hstops⟩
    · rw [List.getElem?_nil] at hi
      cases hi
    · exact hstops

theorem forall₂_inSamePlace {tokens tokens' : List Token} (h : tokens.length = tokens'.length) :
    List.Forall₂ (InSamePlace tokens tokens') tokens tokens' :=
  List.forall₂_iff_get.mpr ⟨h, fun i hi hi' => ⟨i, by simp [hi], by simp [hi']⟩⟩

theorem Token.Renamed.of_inSamePlace {tokens tokens' : List Token}
    (h : List.Forall₂ (Token.Renamed ρ) tokens tokens') {t t' : Token}
    (ht : InSamePlace tokens tokens' t t') : t.Renamed ρ t' := by
  obtain ⟨i, hi, hi'⟩ := ht
  obtain ⟨hlt, rfl⟩ := List.getElem?_eq_some_iff.mp hi
  obtain ⟨hlt', rfl⟩ := List.getElem?_eq_some_iff.mp hi'
  exact (List.forall₂_iff_get.mp h).2 i hlt hlt'

/-! ## Readings -/

/-- **Reading does not depend on how an expression is written down.** If two sequences of tokens
have the same classes, and the identifiers of the second are those of the first under new names that
keep them apart, then both are accepted or both refused. Their formulas differ in the names only, as
do their columns; the rows of their tables show the same. Or their errors are of one kind, with
spans between tokens of the same places, but for the places that an expression without any tokens
but opening parentheses has of its own. It is otherwise only if some operator has no meaning or
groups to neither side; then both may break off there, with the same error. -/
theorem ofTokens_renamed {tokens tokens' : List Token}
    (hsame : List.Forall₂ (Token.Renamed ρ) tokens tokens')
    (hinj : Set.InjOn ρ {x | x ∈ identifiers tokens}) :
    (∃ r r', Reading.ofTokens tokens = .ok r ∧ Reading.ofTokens tokens' = .ok r' ∧
      r'.formula = r.formula.rename ρ ∧ r'.names.names = r.names.names.map ρ ∧ SameTables r r') ∨
    (∃ e e', Reading.ofTokens tokens = .error (.parse e) ∧
      Reading.ofTokens tokens' = .error (.parse e') ∧ e'.kind = e.kind ∧
        SameSpan tokens tokens' e e') ∨
    ((∃ t ∈ beforeEnd tokens, ¬ t.Settled) ∧ ∃ e e', Reading.ofTokens tokens = .error e ∧
      Reading.ofTokens tokens' = .error e' ∧ (∀ cause, e ≠ .parse cause) ∧
        e.Alike (InSamePlace tokens tokens') (EndInSamePlace tokens tokens') e') := by
  have hrenamed : ∀ {t t'}, InSamePlace tokens tokens' t t' → t.Renamed ρ t' :=
    fun ht => .of_inSamePlace hsame ht
  have halike := Polish.ofTokens_alike (R := InSamePlace tokens tokens')
    (P := EndInSamePlace tokens tokens') (fun ht => (hrenamed ht).cls)
    (fun ht => .inl ⟨_, _, ht, rfl, rfl⟩) (forall₂_inSamePlace hsame.length_eq)
    (fun hnil => .inr ⟨hnil, rfl, rfl⟩)
  generalize hp : Polish.ofTokens tokens = x at halike
  generalize hp' : Polish.ofTokens tokens' = x' at halike
  cases halike with
  | ok h =>
    obtain ⟨f, hf, hcovered, hread⟩ := Reading.exists_of_ofTokens hp
    obtain ⟨f', hf', hcovered', hread'⟩ := Reading.exists_of_ofTokens hp'
    have hformula : f' = f.rename ρ := by
      have hbuilt := Formula.ofPolish_rename (h.imp fun _ _ => hrenamed)
      rw [hf, hf'] at hbuilt
      exact Except.ok.inj hbuilt
    have hnames := names_ofTokens hp'
    rw [identifiers_renamed (beforeEnd_renamed hsame)] at hnames
    -- what stands behind the end is not collected
    have hprefix : identifiers (beforeEnd tokens) <+: identifiers tokens :=
      (List.takeWhile_prefix _).filterMap Token.name?
    have hcolumns := NameSet.ofList_map (hinj.mono fun _ hx => hprefix.subset hx)
    rw [← hnames, ← names_ofTokens hp] at hcolumns
    have hnodup := NameSet.nodup_ofList ((identifiers (beforeEnd tokens)).map ρ)
    rw [← hnames] at hnodup
    exact .inl ⟨_, _, hread, hread', hformula, hcolumns,
      sameTables_of_rename hformula hcolumns hnodup hcovered hcovered'⟩
  | @error e e' h =>
    have hunsettled : (∀ cause, e ≠ .parse cause) → ∃ t ∈ beforeEnd tokens, ¬ t.Settled := by
      intro hother
      by_contra hnone
      simp only [not_exists, not_and, not_not] at hnone
      obtain ⟨cause, rfl⟩ := Yard.run_error hnone hp
      exact hother cause rfl
    have herror := Reading.ofTokens_error hp
    have herror' := Reading.ofTokens_error hp'
    right
    cases h with
    | parse h => exact .inl ⟨_, _, herror, herror', h.kind, sameSpan_of_alike h hp⟩
    | @side t t' ht text =>
      have hother : ∀ cause, ReadError.side t text ≠ .parse cause := fun _ => ReadError.noConfusion
      exact .inr ⟨hunsettled hother, _, _, herror, herror', hother, .side ht text⟩
    | polish cause =>
      have hother : ∀ cause', ReadError.polish cause ≠ .parse cause' := fun _ => ReadError.noConfusion
      exact .inr ⟨hunsettled hother, _, _, herror, herror', hother, .polish cause⟩

end

/-- `A & !B`, and the same expression in words, further apart and with other names. The two are also
refused alike if the negation has no operand. -/
theorem ofTokens_renamed_words :
    let ρ : String → String := fun name => if name = "A" then "y" else "x"
    let tokens := (Lexer.default.scan "A & !B").tokens
    let tokens' := (Lexer.default.scan "y AND  NOT x").tokens
    List.Forall₂ (Token.Renamed ρ) tokens tokens' ∧ Set.InjOn ρ {x | x ∈ identifiers tokens} ∧
    (∃ r r', Reading.ofTokens tokens = .ok r ∧ Reading.ofTokens tokens' = .ok r' ∧
      r'.formula = .binary .and (.var "y") (.unary .not (.var "x")) ∧ r'.names.names = ["y", "x"] ∧
      SameTables r r') ∧
    ∃ e e', Reading.ofTokens (tokens.take 3) = .error (.parse e) ∧
      Reading.ofTokens (tokens'.take 3) = .error (.parse e') ∧ e.kind = .missingOperand ∧
      e'.kind = .missingOperand ∧ SameSpan (tokens.take 3) (tokens'.take 3) e e' := by
  intro ρ tokens tokens'
  have hsame : List.Forall₂ (Token.Renamed ρ) tokens tokens' :=
    .cons ⟨rfl, fun _ => rfl⟩ <| .cons ⟨rfl, nofun⟩ <| .cons ⟨rfl, nofun⟩ <|
      .cons ⟨rfl, fun _ => rfl⟩ <| .cons ⟨rfl, nofun⟩ .nil
  have hnames : identifiers tokens = ["A", "B"] := by decide
  have hinj : Set.InjOn ρ {x | x ∈ ["A", "B"]} := by
    intro x hx y hy heq
    simp only [Set.mem_ofPred_eq, List.mem_cons, List.not_mem_nil, or_false] at hx hy
    rcases hx with rfl | rfl <;> rcases hy with rfl | rfl <;> simp_all [ρ]
  have hshort : ∀ x ∈ identifiers (tokens.take 3), x ∈ ["A", "B"] := by decide
  refine ⟨hsame, hnames ▸ hinj, ?_, ?_⟩
  · rcases ofTokens_renamed hsame (hnames ▸ hinj) with ⟨r, r', hr, hr', hf, hn, htables⟩ |
      ⟨e, -, he, -⟩ | ⟨-, e, -, he, -⟩
    · cases hr
      exact ⟨_, r', rfl, hr', hf, hn, htables⟩
    · cases he
    · cases he
  · rcases ofTokens_renamed (List.forall₂_take 3 hsame) (hinj.mono hshort) with ⟨r, -, hr, -⟩ |
      ⟨e, e', he, he', hkind, hspan⟩ | ⟨-, e, -, he, -, hother, -⟩
    · cases hr
    · cases he
      exact ⟨_, e', rfl, he', rfl, hkind, hspan⟩
    · cases he
      exact absurd rfl (hother _)

/-- Two errors whose spans are not those of tokens: an opening parenthesis behind two blanks, and
behind three, is refused from the beginning on, where no token stands; without any tokens the span
ends there, too. And an operator that has no meaning breaks the reading off in another way. -/
theorem span_not_of_tokens :
    (let tokens := (Lexer.default.scan "  (").tokens
     let tokens' := (Lexer.default.scan "   (").tokens
     List.Forall₂ (Token.Renamed id) tokens tokens' ∧
     ∃ e e', Reading.ofTokens tokens = .error (.parse e) ∧
       Reading.ofTokens tokens' = .error (.parse e') ∧
       (∀ t ∈ tokens, e.start ≠ t.start) ∧ ∀ t ∈ tokens', e'.start ≠ t.start) ∧
    Reading.ofTokens [] = .error (.parse (.emptyExpression 0)) ∧
    let tokens : List Token :=
      [⟨.variableName, "A", 0, 1⟩, ⟨.unboundOperator, "&", 1, 2⟩, ⟨.variableName, "B", 2, 3⟩]
    ∃ e, Reading.ofTokens tokens = .error e ∧ ∀ cause, e ≠ .parse cause := by
  refine ⟨⟨?_, _, _, rfl, rfl, by decide, by decide⟩, rfl, .polish .unbound, rfl, ?_⟩
  · exact .cons ⟨rfl, nofun⟩ (.cons ⟨rfl, nofun⟩ .nil)
  · exact fun _ => ReadError.noConfusion

end Propositional
