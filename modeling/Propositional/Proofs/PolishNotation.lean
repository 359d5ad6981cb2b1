import Mathlib.Data.List.Induction
import Propositional.Proofs.AcceptedTexts
import Propositional.Proofs.Language

/-!
# Reverse Polish notation can be read in one way

Tokens in reverse Polish notation are read as names and connectives, each connective with the number
of formulas that it takes. The formula of a notation is the one whose nodes, operands before their
connective, are this notation; so there is at most one. A notation without a formula runs short of
operands, or has too many.

* `Entry`, `entries` — what tokens in reverse Polish notation are read as.
* `Entry.push` — building a formula, by entries; `foldlM_build_eq_push`.
* `foldlM_push_polish`, `eq_stackPolish_of_push` — a stack of formulas and its notation.
* `operands`, `Lacking` — how many operands some entries leave, and when there are too few.
* `push_outcomes` — what becomes of any entries.
* `ofPolish_inverts_bottomUp` — building a formula and listing its nodes undo each other.
-/

namespace Propositional

/-! ## Entries -/

/-- What a node of a formula, or a token, stands for in reverse Polish notation. -/
inductive Entry where
  | name (name : String)
  /-- A connective over one formula. -/
  | prefixed (k : Connective)
  /-- A connective over two formulas. -/
  | infixed (k : Connective)
  /-- An operator without a meaning. -/
  | unbound
  /-- A value in the place of a formula. -/
  | foreign (value : Value)

/-- The number of formulas that an entry takes from the stack. -/
def Entry.arity : Entry → Nat
  | name _ | unbound | foreign _ => 0
  | prefixed _ => 1
  | infixed _ => 2

def Formula.entry : Formula → Entry
  | var name => .name name
  | unary k _ => .prefixed k
  | binary k _ _ => .infixed k
  | foreign v => .foreign v

/-- The entry of a token; tokens that are neither identifiers nor operators have none. -/
def Token.entry? (t : Token) : Option Entry :=
  match t.role with
  | .identifier => some (.name t.value)
  | .operator op => some (if op.kind.arity = 1 then .prefixed op.kind else .infixed op.kind)
  | .unbound => some .unbound
  | .blank | .opening | .closing | .finish | .other => none

/-- What some tokens are read as. -/
def entries (tokens : List Token) : List Entry := tokens.filterMap Token.entry?

/-- What one entry does to the stack of formulas, latest first. -/
def Entry.push (stack : List Formula) : Entry → Except PolishError (List Formula)
  | name x => .ok (.var x :: stack)
  | prefixed k => match stack with
    | f :: rest => .ok (.unary k f :: rest)
    | [] => .error .noOperand
  | infixed k => match stack with
    | r :: l :: rest => .ok (.binary k l r :: rest)
    | _ => .error .noOperand
  | unbound => .error .unbound
  | foreign v => .ok (.foreign v :: stack)

theorem build_eq_push {t : Token} {e : Entry} (h : t.entry? = some e) (stack : List Formula) :
    Formula.build stack t = e.push stack := by
  unfold Token.entry? at h
  cases hr : t.role with
  | identifier =>
    rw [hr] at h
    cases h
    simp only [Formula.build, hr, Entry.push]
  | operator op =>
    rw [hr] at h
    cases h
    by_cases harity : op.kind.arity = 1
    · simp only [Formula.build, hr, harity, if_true]
      cases stack <;> rfl
    · simp only [Formula.build, hr, harity, if_false]
      rcases stack with _ | ⟨r, _ | ⟨l, rest⟩⟩ <;> rfl
  | unbound =>
    rw [hr] at h
    cases h
    simp only [Formula.build, hr, Entry.push]
  | _ =>
    rw [hr] at h
    cases h

theorem build_of_entry?_eq_none {t : Token} (h : t.entry? = none) (stack : List Formula) :
    Formula.build stack t = .ok stack := by
  cases hr : t.role with
  | identifier => simp [Token.entry?, hr] at h
  | operator op => simp [Token.entry?, hr] at h
  | unbound => simp [Token.entry?, hr] at h
  | _ => simp only [Formula.build, hr]

/-- **What is built depends on the entries only.** -/
theorem foldlM_build_eq_push : ∀ (tokens : List Token) (stack : List Formula),
    tokens.foldlM Formula.build stack = (entries tokens).foldlM Entry.push stack
  | [], stack => rfl
  | t :: tokens, stack => by
    rw [List.foldlM_cons, entries]
    cases h : t.entry? with
    | none =>
      rw [build_of_entry?_eq_none h, List.filterMap_cons_none h]
      exact foldlM_build_eq_push tokens stack
    | some e =>
      rw [build_eq_push h, List.filterMap_cons_some h, List.foldlM_cons]
      exact congrArg (e.push stack >>= ·) (funext fun next => foldlM_build_eq_push tokens next)

/-! ## Formulas and their notation -/

/-- The notation of a formula: the entries of its nodes, operands before their connective. -/
def Formula.polish (f : Formula) : List Entry := f.postorder.map entry

/-- The notation of a stack of formulas, the latest of which comes last. -/
def stackPolish (stack : List Formula) : List Entry := stack.reverse.flatMap Formula.polish

theorem stackPolish_cons (f : Formula) (stack : List Formula) :
    stackPolish (f :: stack) = stackPolish stack ++ f.polish := by
  simp [stackPolish]

/-- The notation of a formula puts this formula on any stack. -/
theorem foldlM_push_polish (f : Formula) : ∀ stack : List Formula,
    f.polish.foldlM Entry.push stack = .ok (f :: stack) := by
  induction f with
  | var x => exact fun stack => rfl
  | foreign v => exact fun stack => rfl
  | unary k f ih =>
    intro stack
    rw [Formula.polish, Formula.postorder, List.map_append, List.foldlM_append,
      ← Formula.polish, ih stack]
    rfl
  | binary k l r ihl ihr =>
    intro stack
    rw [Formula.polish, Formula.postorder, List.map_append, List.map_append, List.foldlM_append,
      List.foldlM_append, ← Formula.polish, ← Formula.polish, ihl stack]
    show (r.polish.foldlM Entry.push (l :: stack) >>= _) = _
    rw [ihr (l :: stack)]
    rfl

/-- An entry that is taken goes behind the notation of the stack. -/
theorem stackPolish_push {stack stack' : List Formula} {e : Entry} (h : e.push stack = .ok stack') :
    stackPolish stack' = stackPolish stack ++ [e] := by
  cases e with
  | name x =>
    cases h
    rw [stackPolish_cons]
    rfl
  | foreign v =>
    cases h
    rw [stackPolish_cons]
    rfl
  | unbound => cases h
  | prefixed k =>
    cases stack with
    | nil => cases h
    | cons f rest =>
      cases h
      rw [stackPolish_cons, stackPolish_cons, List.append_assoc]
      simp [Formula.polish, Formula.postorder, Formula.entry]
  | infixed k =>
    rcases stack with _ | ⟨r, _ | ⟨l, rest⟩⟩
    · cases h
    · cases h
    · cases h
      rw [stackPolish_cons, stackPolish_cons, stackPolish_cons, List.append_assoc,
        List.append_assoc]
      simp [Formula.polish, Formula.postorder, Formula.entry]

/-- **The entries that have been taken are the notation of the stack.** By induction on the entries,
the last one first. -/
theorem eq_stackPolish_of_push {es : List Entry} {stack : List Formula}
    (h : es.foldlM Entry.push [] = .ok stack) : es = stackPolish stack := by
  induction es using List.reverseRecOn generalizing stack with
  | nil =>
    cases h
    rfl
  | append_singleton es e ih =>
    rw [List.foldlM_append] at h
    obtain ⟨before, hbefore, hlast⟩ := exists_of_bind_eq_ok h
    rw [List.foldlM_cons] at hlast
    obtain ⟨after, hpush, hdone⟩ := exists_of_bind_eq_ok hlast
    cases hdone
    rw [stackPolish_push hpush, ← ih hbefore]

/-- Entries leave one formula exactly if they are its notation. -/
theorem foldlM_push_eq_singleton_iff {es : List Entry} {f : Formula} :
    es.foldlM Entry.push [] = .ok [f] ↔ es = f.polish := by
  constructor
  · intro h
    have hstack := eq_stackPolish_of_push h
    rwa [stackPolish_cons, show stackPolish [] = [] from rfl, List.nil_append] at hstack
  · rintro rfl
    exact foldlM_push_polish f []

/-- **Different formulas have different notations.** -/
theorem Formula.polish_injective : Function.Injective polish := by
  intro f g h
  have hf := foldlM_push_polish f []
  rw [h, foldlM_push_polish g []] at hf
  cases hf
  rfl

/-! ## Operands -/

/-- How many operands some entries leave: each entry leaves one in the place of those it takes. -/
def operands : List Entry → Int
  | [] => 0
  | e :: es => 1 - e.arity + operands es

theorem operands_append (es more : List Entry) :
    operands (es ++ more) = operands es + operands more := by
  induction es with
  | nil => simp [operands]
  | cons e es ih =>
    simp only [List.cons_append, operands, ih]
    omega

theorem operands_snoc (es : List Entry) (e : Entry) :
    operands (es ++ [e]) = operands es + 1 - e.arity := by
  rw [operands_append]
  simp only [operands]
  omega

/-- Some entry has fewer operands to its left than it takes. -/
def Lacking (es : List Entry) : Prop :=
  ∃ before e after, es = before ++ e :: after ∧ .unbound ∉ before ∧ operands before < e.arity

theorem not_lacking_nil : ¬ Lacking [] := by
  rintro ⟨before, e, after, h, -⟩
  simp at h

/-- One more entry is short of operands, or one of those before it is. -/
theorem lacking_snoc {es : List Entry} {e : Entry} :
    Lacking (es ++ [e]) ↔ Lacking es ∨ .unbound ∉ es ∧ operands es < e.arity := by
  constructor
  · rintro ⟨before, d, after, h, hbound, hfew⟩
    rcases List.eq_nil_or_concat after with rfl | ⟨rest, last, rfl⟩
    · obtain ⟨rfl, hd⟩ := List.append_inj' h rfl
      cases hd
      exact .inr ⟨hbound, hfew⟩
    · rw [List.concat_eq_append, ← List.cons_append, ← List.append_assoc] at h
      obtain ⟨rfl, -⟩ := List.append_inj' h rfl
      exact .inl ⟨before, d, rest, rfl, hbound, hfew⟩
  · rintro (⟨before, d, after, rfl, hbound, hfew⟩ | ⟨hbound, hfew⟩)
    · exact ⟨before, d, after ++ [e], by simp, hbound, hfew⟩
    · exact ⟨es, e, [], rfl, hbound, hfew⟩

/-- **What an entry does**: it replaces the formulas that it takes by one, or there are too few of
them, or it has no meaning. -/
theorem Entry.push_cases (e : Entry) (stack : List Formula) :
    (∃ stack', e.push stack = .ok stack' ∧ e ≠ .unbound ∧ e.arity ≤ stack.length ∧
      stack'.length + e.arity = stack.length + 1) ∨
    (e.push stack = .error .noOperand ∧ e ≠ .unbound ∧ stack.length < e.arity) ∨
    (e.push stack = .error .unbound ∧ e = .unbound) := by
  cases e with
  | name x => exact .inl ⟨_, rfl, nofun, Nat.zero_le _, rfl⟩
  | foreign v => exact .inl ⟨_, rfl, nofun, Nat.zero_le _, rfl⟩
  | unbound => exact .inr (.inr ⟨rfl, rfl⟩)
  | prefixed k =>
    cases stack with
    | nil => exact .inr (.inl ⟨rfl, nofun, Nat.zero_lt_one⟩)
    | cons f rest => exact .inl ⟨_, rfl, nofun, by simp [arity], by simp [arity]⟩
  | infixed k =>
    rcases stack with _ | ⟨r, _ | ⟨l, rest⟩⟩
    · exact .inr (.inl ⟨rfl, nofun, by simp [arity]⟩)
    · exact .inr (.inl ⟨rfl, nofun, by simp [arity]⟩)
    · exact .inl ⟨_, rfl, nofun, by simp [arity], by simp [arity]⟩

/-- **What becomes of any entries**: each finds its operands, or one of them is the first that does
not, or one of them is the first that has no meaning. By induction on the entries, the last one
first. -/
theorem push_outcomes (es : List Entry) :
    (∃ stack, es.foldlM Entry.push [] = .ok stack ∧ .unbound ∉ es ∧ ¬ Lacking es ∧
      operands es = stack.length) ∨
    (es.foldlM Entry.push [] = .error .noOperand ∧ Lacking es) ∨
    (es.foldlM Entry.push [] = .error .unbound ∧ .unbound ∈ es ∧ ¬ Lacking es) := by
  induction es using List.reverseRecOn with
  | nil => exact .inl ⟨[], rfl, List.not_mem_nil, not_lacking_nil, rfl⟩
  | append_singleton es e ih =>
    rw [List.foldlM_append, lacking_snoc, operands_snoc, List.mem_append, List.mem_singleton]
    rcases ih with ⟨stack, hrun, hbound, hlacking, hcount⟩ | ⟨hrun, hlacking⟩ |
      ⟨hrun, hunbound, hlacking⟩
    · rw [hrun]
      have hpush : ([e].foldlM Entry.push stack) = e.push stack := bind_pure _
      show (∃ stack', [e].foldlM Entry.push stack = .ok stack' ∧ _) ∨
        ([e].foldlM Entry.push stack = _ ∧ _) ∨ ([e].foldlM Entry.push stack = _ ∧ _)
      rw [hpush]
      rcases e.push_cases stack with ⟨stack', hok, hne, harity, hlength⟩ | ⟨herror, hne, hfew⟩ |
        ⟨herror, rfl⟩
      · refine .inl ⟨stack', hok, ?_, ?_, by omega⟩
        · rintro (hmem | heq)
          · exact hbound hmem
          · exact hne heq.symm
        · rintro (hmore | ⟨-, hfew⟩)
          · exact hlacking hmore
          · omega
      · exact .inr (.inl ⟨herror, .inr ⟨hbound, by omega⟩⟩)
      · refine .inr (.inr ⟨herror, .inr rfl, ?_⟩)
        rintro (hmore | ⟨-, hfew⟩)
        · exact hlacking hmore
        · simp only [Entry.arity] at hfew
          omega
    · rw [hrun]
      exact .inr (.inl ⟨rfl, .inl hlacking⟩)
    · rw [hrun]
      refine .inr (.inr ⟨rfl, .inl hunbound, ?_⟩)
      rintro (hmore | ⟨hbound, -⟩)
      · exact hlacking hmore
      · exact hbound hunbound

/-! ## Formulas of tokens -/

theorem ofPolish_eq (tokens : List Token) : Formula.ofPolish tokens =
    (entries tokens).foldlM Entry.push [] >>= fun
      | [f] => .ok f
      | stack => .error (.leftover stack.length) := by
  rw [← foldlM_build_eq_push]
  rfl

/-- Each way in which building a formula can end. -/
theorem ofPolish_outcomes (tokens : List Token) :
    (∃ f, Formula.ofPolish tokens = .ok f ∧ entries tokens = f.polish ∧
      .unbound ∉ entries tokens ∧ ¬ Lacking (entries tokens) ∧ operands (entries tokens) = 1) ∨
    (∃ n : Nat, Formula.ofPolish tokens = .error (.leftover n) ∧ .unbound ∉ entries tokens ∧
      ¬ Lacking (entries tokens) ∧ operands (entries tokens) = n ∧ n ≠ 1) ∨
    (Formula.ofPolish tokens = .error .noOperand ∧ Lacking (entries tokens)) ∨
    (Formula.ofPolish tokens = .error .unbound ∧ .unbound ∈ entries tokens ∧
      ¬ Lacking (entries tokens)) := by
  rw [ofPolish_eq]
  rcases push_outcomes (entries tokens) with ⟨stack, hrun, hbound, hlacking, hcount⟩ |
    ⟨hrun, hlacking⟩ | ⟨hrun, hunbound, hlacking⟩
  · rw [hrun]
    rcases stack with _ | ⟨f, _ | ⟨g, rest⟩⟩
    · exact .inr (.inl ⟨0, rfl, hbound, hlacking, hcount, nofun⟩)
    · exact .inl ⟨f, rfl, foldlM_push_eq_singleton_iff.mp hrun, hbound, hlacking, hcount⟩
    · exact .inr (.inl ⟨_, rfl, hbound, hlacking, hcount, by simp⟩)
  · rw [hrun]
    exact .inr (.inr (.inl ⟨rfl, hlacking⟩))
  · rw [hrun]
    exact .inr (.inr (.inr ⟨rfl, hunbound, hlacking⟩))

/-- A token for a node of a formula. -/
def Formula.token : Formula → Token
  | var x => ⟨.variableName, x, 0, 0⟩
  | unary k _ | binary k _ _ => ⟨k.tokenClass, k.symbol, 0, 0⟩
  | foreign v => ⟨{ name := "Value", family := .other }, v.display, 0, 0⟩

theorem entry?_token_unary {k : Connective} {f : Formula} (h : k.arity = 1) :
    (Formula.unary k f).token.entry? = some (.prefixed k) := by
  have hrole : (Formula.unary k f).token.role = .operator (.ofKind k) := k.tokenClass_role
  simp [Token.entry?, hrole, Operator.ofKind, h]

theorem entry?_token_binary {k : Connective} {l r : Formula} (h : k.arity = 2) :
    (Formula.binary k l r).token.entry? = some (.infixed k) := by
  have hrole : (Formula.binary k l r).token.role = .operator (.ofKind k) := k.tokenClass_role
  simp [Token.entry?, hrole, Operator.ofKind, h]

/-- The tokens of the nodes of a proper formula are read as its notation. -/
theorem entries_map_token : ∀ {f : Formula}, f.Proper →
    entries (f.postorder.map Formula.token) = f.polish
  | .var x, _ => rfl
  | .unary k f, ⟨hk, hf⟩ => by
    have ih := entries_map_token hf
    unfold entries Formula.polish at *
    rw [Formula.postorder, List.map_append, List.map_append, List.filterMap_append, ih,
      List.map_singleton, List.filterMap_cons_some (entry?_token_unary hk)]
    rfl
  | .binary k l r, ⟨hk, hl, hr⟩ => by
    have ihl := entries_map_token hl
    have ihr := entries_map_token hr
    unfold entries Formula.polish at *
    rw [Formula.postorder, List.map_append, List.map_append, List.map_append, List.map_append,
      List.filterMap_append, List.filterMap_append, ihl, ihr, List.map_singleton,
      List.filterMap_cons_some (entry?_token_binary hk)]
    rfl

/-- **Building a formula and listing its nodes undo each other.** Some tokens have a formula exactly
if they are read as its nodes, operands before their connective, and no other formula has these
nodes. Otherwise some operator has fewer operands to its left than it takes, or all have enough and
not one operand is left; what is left is counted. An operator without a meaning ends this if no
operator is short of operands before it. The tokens of the nodes of a proper formula have this
formula. -/
theorem ofPolish_inverts_bottomUp :
    (∀ (tokens : List Token) (f : Formula), Formula.ofPolish tokens = .ok f ↔
      entries tokens = f.bottomUp.map Formula.entry) ∧
    (∀ f g : Formula, f.bottomUp.map Formula.entry = g.bottomUp.map Formula.entry → f = g) ∧
    (∀ tokens : List Token, Formula.ofPolish tokens = .error .noOperand ↔
      Lacking (entries tokens)) ∧
    (∀ (tokens : List Token) (n : Nat), Formula.ofPolish tokens = .error (.leftover n) ↔
      .unbound ∉ entries tokens ∧ ¬ Lacking (entries tokens) ∧
        operands (entries tokens) = n ∧ n ≠ 1) ∧
    (∀ tokens : List Token, Formula.ofPolish tokens = .error .unbound ↔
      .unbound ∈ entries tokens ∧ ¬ Lacking (entries tokens)) ∧
    ∀ f : Formula, f.Proper → Formula.ofPolish (f.bottomUp.map Formula.token) = .ok f := by
  have hok : ∀ (tokens : List Token) (f : Formula), entries tokens = f.polish →
      Formula.ofPolish tokens = .ok f := by
    intro tokens f h
    rw [ofPolish_eq, foldlM_push_eq_singleton_iff.mpr h]
    rfl
  simp only [Formula.bottomUp_eq_postorder]
  refine ⟨fun tokens f => ⟨fun h => ?_, hok tokens f⟩, fun f g h => Formula.polish_injective h,
    fun tokens => ?_, fun tokens n => ?_, fun tokens => ?_,
    fun f hf => hok _ f (entries_map_token hf)⟩
  -- the outcomes exclude one another
  all_goals
    rcases ofPolish_outcomes tokens with ⟨g, ho, hentries, hbound, hlacking, hone⟩ |
      ⟨m, ho, hbound, hlacking, hcount, hne⟩ | ⟨ho, hlacking⟩ | ⟨ho, hunbound, hlacking⟩
  · rw [ho, Except.ok.injEq] at h
    rw [← h]
    exact hentries
  · simp [ho] at h
  · simp [ho] at h
  · simp [ho] at h
  · exact iff_of_false (by simp [ho]) hlacking
  · exact iff_of_false (by simp [ho]) hlacking
  · exact iff_of_true ho hlacking
  · exact iff_of_false (by simp [ho]) hlacking
  · exact iff_of_false (by simp [ho]) fun ⟨_, _, hn, hne⟩ => hne (by omega)
  · rw [ho, Except.error.injEq, PolishError.leftover.injEq]
    constructor
    · rintro rfl
      exact ⟨hbound, hlacking, hcount, hne⟩
    · rintro ⟨-, -, hn, -⟩
      omega
  · exact iff_of_false (by simp [ho]) fun ⟨_, henough, _⟩ => henough hlacking
  · exact iff_of_false (by simp [ho]) fun ⟨hbound, _⟩ => hbound hunbound
  · exact iff_of_false (by simp [ho]) fun ⟨hunbound, _⟩ => hbound hunbound
  · exact iff_of_false (by simp [ho]) fun ⟨hunbound, _⟩ => hbound hunbound
  · exact iff_of_false (by simp [ho]) fun ⟨_, henough⟩ => henough hlacking
  · exact iff_of_true ho ⟨hunbound, hlacking⟩

/-- The nodes of `p && !q`, a notation whose last operator comes too early, and one that leaves two
operands. -/
theorem ofPolish_inverts_bottomUp_nested :
    let f : Formula := .binary .and (.var "p") (.unary .not (.var "q"))
    let p : Token := ⟨.variableName, "p", 0, 1⟩
    let both : Token := ⟨.conjunction, "&", 1, 2⟩
    f.Proper ∧ Formula.ofPolish (f.bottomUp.map Formula.token) = .ok f ∧
    Formula.ofPolish [p, both, p] = .error .noOperand ∧
    Formula.ofPolish [p, p] = .error (.leftover 2) := by
  intro f p both
  obtain ⟨-, -, hlacking, hleftover, -, hproper⟩ := ofPolish_inverts_bottomUp
  have hf : f.Proper := ⟨rfl, trivial, rfl, trivial⟩
  have hone : ¬ Lacking [.name "p"] := by
    rw [← List.nil_append [Entry.name "p"], lacking_snoc]
    rintro (hnil | ⟨-, hfew⟩)
    · exact not_lacking_nil hnil
    · exact absurd hfew (by decide)
  refine ⟨hf, hproper f hf, (hlacking _).mpr ?_, (hleftover _ 2).mpr ⟨?_, ?_, rfl, by decide⟩⟩
  · exact ⟨[.name "p"], .infixed .and, [.name "p"], rfl, by simp, by decide⟩
  · simp [entries, Token.entry?, p, Token.role]
  · show ¬ Lacking ([.name "p"] ++ [.name "p"])
    rw [lacking_snoc]
    rintro (hfirst | ⟨-, hfew⟩)
    · exact hone hfirst
    · exact absurd hfew (by decide)

end Propositional
