import Propositional.Proofs.Evaluation
import Propositional.Proofs.SourceOrder
import Propositional.Proofs.Variables
import Propositional.Table.Basic

/-!
# Texts that are accepted, in any language

Whatever the classes of a language are: a text that is read is not empty, its formula has as many
operands under every connective as it takes, and the names that are collected are those of the
formula's variables, none of them empty.

* `Formula.CoveredBy` — a formula that can be evaluated wherever the given names have values.
* `coveredBy_of_ofPolish` — the formula of tokens in reverse Polish notation.
* `Polish.exists_advance_of_ofScan` — the tokens of a scan that is accepted.
* `Table.Tabular`, `Table.tabular_of_generate` — what every table of a text has.
-/

namespace Propositional

/-! ## Computations that give something -/

section

variable {ε δ α β : Type}

theorem exists_of_bind_eq_ok {x : Except ε α} {f : α → Except ε β} {b : β}
    (h : x >>= f = .ok b) : ∃ a, x = .ok a ∧ f a = .ok b := by
  cases x with
  | error e => cases h
  | ok a => exact ⟨a, rfl, h⟩

theorem exists_of_map_eq_ok {x : Except ε α} {f : α → β} {b : β} (h : x.map f = .ok b) :
    ∃ a, x = .ok a ∧ f a = b := by
  cases x with
  | error e => cases h
  | ok a => exact ⟨a, rfl, Except.ok.inj h⟩

theorem eq_ok_of_mapError_eq_ok {x : Except ε α} {f : ε → δ} {a : α} (h : x.mapError f = .ok a) :
    x = .ok a := by
  cases x with
  | error e => cases h
  | ok b => exact congrArg Except.ok (Except.ok.inj h)

end

/-! ## Formulas over some names -/

/-- Every connective has as many operands as it takes, and every variable is among the names. -/
structure Formula.CoveredBy (names : List String) (f : Formula) : Prop where
  proper : f.Proper
  mem : ∀ x ∈ f.occurrences, x ∈ names

namespace Formula

variable {names : List String}

theorem CoveredBy.mono {more : List String} {f : Formula} (h : f.CoveredBy names)
    (hsub : names ⊆ more) : f.CoveredBy more :=
  ⟨h.proper, fun x hx => hsub (h.mem x hx)⟩

theorem coveredBy_var {x : String} (h : x ∈ names) : (var x).CoveredBy names :=
  ⟨trivial, fun _ hy => List.mem_singleton.mp hy ▸ h⟩

theorem CoveredBy.unary {k : Connective} {f : Formula} (hk : k.arity = 1) (h : f.CoveredBy names) :
    (unary k f).CoveredBy names :=
  ⟨⟨hk, h.proper⟩, h.mem⟩

theorem CoveredBy.binary {k : Connective} {l r : Formula} (hk : k.arity = 2)
    (hl : l.CoveredBy names) (hr : r.CoveredBy names) : (binary k l r).CoveredBy names :=
  ⟨⟨hk, hl.proper, hr.proper⟩, fun x hx => (List.mem_append.mp hx).elim (hl.mem x) (hr.mem x)⟩

/-- **A token keeps the formulas that have been built covered**, if its name is covered. -/
theorem coveredBy_build {stack stack' : List Formula} {t : Token}
    (hstack : ∀ f ∈ stack, f.CoveredBy names) (ht : t.role = .identifier → t.value ∈ names)
    (h : build stack t = .ok stack') : ∀ f ∈ stack', f.CoveredBy names := by
  unfold build at h
  split at h
  · rename_i hr
    cases h
    exact List.forall_mem_cons.mpr ⟨coveredBy_var (ht hr), hstack⟩
  · split at h
    · rename_i harity
      split at h
      · cases h
        obtain ⟨hf, hrest⟩ := List.forall_mem_cons.mp hstack
        exact List.forall_mem_cons.mpr ⟨hf.unary harity, hrest⟩
      · cases h
    · rename_i harity
      split at h
      · cases h
        obtain ⟨hr, hrest⟩ := List.forall_mem_cons.mp hstack
        obtain ⟨hl, hrest⟩ := List.forall_mem_cons.mp hrest
        exact List.forall_mem_cons.mpr ⟨hl.binary (Connective.arity_eq_two harity) hr, hrest⟩
      · cases h
  · cases h
  all_goals
    cases h
    exact hstack

theorem coveredBy_foldlM_build : ∀ {tokens : List Token} {stack stack' : List Formula},
    (∀ f ∈ stack, f.CoveredBy names) → (∀ t ∈ tokens, t.role = .identifier → t.value ∈ names) →
      tokens.foldlM build stack = .ok stack' → ∀ f ∈ stack', f.CoveredBy names
  | [], _, _, hstack, _, h => by
    cases h
    exact hstack
  | t :: tokens, stack, stack', hstack, hnames, h => by
    rw [List.foldlM_cons] at h
    obtain ⟨next, hb, hmore⟩ := exists_of_bind_eq_ok h
    obtain ⟨ht, hrest⟩ := List.forall_mem_cons.mp hnames
    exact coveredBy_foldlM_build (coveredBy_build hstack ht hb) hrest hmore

/-- The formula of tokens in reverse Polish notation is covered by the names of the tokens. -/
theorem coveredBy_of_ofPolish {tokens : List Token} {f : Formula} (h : ofPolish tokens = .ok f)
    (hnames : ∀ t ∈ tokens, t.role = .identifier → t.value ∈ names) : f.CoveredBy names := by
  obtain ⟨stack, hb, hone⟩ := exists_of_bind_eq_ok h
  have hstack := coveredBy_foldlM_build (List.forall_mem_nil _) hnames hb
  split at hone
  · cases hone
    exact hstack f (List.mem_singleton.mpr rfl)
  · cases hone

end Formula

/-! ## Tokens of an accepted scan -/

namespace Yard

/-- A run that gives something has taken all tokens before the end. Then it has come to its end, or
gone on behind the tokens. -/
theorem exists_advance_of_run_ok {after : Yard → Except ReadError Polish} {y : Yard}
    {tokens : List Token} {p : Polish} (h : y.run after tokens = .ok p) :
    ∃ y', y.advance (beforeEnd tokens) = .ok y' ∧
      ((∃ place, y'.finish place = .ok p) ∨ after y' = .ok p) := by
  rcases advance_cases (beforeEnd tokens) y with ⟨y', hy'⟩ | ⟨taken, t, rest, y', e, heq, hy', ht⟩
  · refine ⟨y', hy', ?_⟩
    rw [← beforeEnd_append_drop tokens, run_append hy', run_dropWhile] at h
    split at h
    · exact .inl ⟨_, h⟩
    · exact .inr h
  · have hmem : t ∈ beforeEnd tokens := by simp [heq]
    rw [← beforeEnd_append_drop tokens, heq, List.append_assoc, run_append hy', List.cons_append,
      run_refused (role_ne_finish_of_mem hmem) ht] at h
    cases h

/-- Two identifiers in a row are never taken. -/
theorem role_ne_identifier_of_advance {y y' : Yard} {t : Token} {rest : List Token}
    (h : y.advance (t :: t :: rest) = .ok y') : t.role ≠ .identifier := by
  intro hr
  obtain ⟨z, hz, h⟩ := exists_steps_of_advance h
  obtain ⟨z', hz', -⟩ := exists_steps_of_advance h
  have htaken := step_of_steps hz
  have htaken' := step_of_steps hz'
  simp only [step, hr] at htaken htaken'
  split at htaken
  · cases htaken
    cases htaken'
  · cases htaken

end Yard

/-- **A scan that is accepted**: tokens are read up to an end, and those of them that are
identifiers belong to the scan. -/
theorem Polish.exists_advance_of_ofScan {s : Scan} {p : Polish} (h : Polish.ofScan s = .ok p) :
    ∃ read y place, Yard.start.advance read = .ok y ∧ y.finish place = .ok p ∧
      ∀ t ∈ read, t.role = .identifier → t ∈ s.tokens := by
  obtain ⟨y, hy, ⟨place, hp⟩ | hafter⟩ := Yard.exists_advance_of_run_ok h
  · exact ⟨_, y, place, hy, hp, fun t ht _ => (List.takeWhile_prefix _).subset ht⟩
  · split at hafter
    · exact ⟨_, y, _, hy, hafter, fun t ht _ => (List.takeWhile_prefix _).subset ht⟩
    · cases hafter
    · rename_i t _
      obtain ⟨y', place, hy', hp⟩ := Yard.exists_advance_of_run hafter
      refine ⟨_, y', place, (Yard.advance_append hy _).trans hy', hp, fun u hu hr => ?_⟩
      rcases List.mem_append.mp hu with hu | hu
      · exact (List.takeWhile_prefix _).subset hu
      · -- the repeated token would be taken twice
        have hut : u = t := by
          have hsub := (List.takeWhile_prefix _).subset hu
          simpa using hsub
        subst hut
        have hfinish : u.role ≠ .finish := by simp [hr]
        have hboth : beforeEnd [u, u] = [u, u] := by simp [beforeEnd, hfinish]
        rw [hboth] at hy'
        exact absurd hr (Yard.role_ne_identifier_of_advance hy')

/-- The identifiers in the output have been collected, and what has been collected are identifiers
that were read. -/
theorem Yard.names_of_finish {read : List Token} {y : Yard} {place : Int} {p : Polish}
    (hy : start.advance read = .ok y) (hp : y.finish place = .ok p) :
    (∀ t ∈ p.tokens, t.role = .identifier → t.value ∈ p.names.names) ∧
      ∀ x ∈ p.names.names, ∃ t ∈ read, t.role = .identifier ∧ t.value = x := by
  obtain ⟨-, held, hpending, rfl⟩ := eq_of_finish hp
  have hkeeps := Keeps.of_advance hy
  have hnames : ∀ x, x ∈ y.names.names ↔ ∃ t ∈ read, t.role = .identifier ∧ t.value = x := by
    intro x
    have hlist : y.names = .ofList (identifiers read) := names_of_advance hy
    rw [hlist, NameSet.names_ofList, List.mem_eraseDups, identifiers, List.mem_filterMap]
    simp [Token.name?]
  refine ⟨fun t ht hr => ?_, fun x => (hnames x).mp⟩
  rcases List.mem_append.mp ht with ht | ht
  · have hread : t ∈ read.filter (·.role = .identifier) := by
      rw [← hkeeps.identifiers]
      exact List.mem_filter.mpr ⟨ht, by simpa using hr⟩
    exact (hnames _).mpr ⟨t, (List.mem_filter.mp hread).1, hr, rfl⟩
  · -- operators wait on the stack, and nothing else
    have hwaiting := waiting_operators_append [] held
    rw [List.append_nil, ← hpending] at hwaiting
    obtain ⟨op, hop⟩ := hkeeps.only_operators t (by rw [hwaiting]; exact List.mem_append_left _ ht)
    rw [hop] at hr
    cases hr

/-- No identifier of a scan is empty. -/
theorem value_ne_empty_of_scanFrom (classes : List TokenClass) :
    ∀ (cs : List Char) (skip place : Nat), ∀ t ∈ (scanFrom classes skip place cs).lexemes,
      t.role = .identifier → t.value ≠ ""
  | [], skip, place, t, ht, hr => by
    rw [scanFrom, List.mem_singleton] at ht
    subst ht
    cases hr
  | c :: cs, skip + 1, place, t, ht, hr => by
    rw [scanFrom] at ht
    exact value_ne_empty_of_scanFrom classes cs skip (place + 1) t ht hr
  | c :: cs, 0, place, t, ht, hr => by
    simp only [scanFrom] at ht
    split at ht
    · cases ht
    · cases ht
    · rename_i cls n _
      split at ht
      · cases ht
      · rename_i hn
        rcases List.mem_cons.mp ht with rfl | ht
        · obtain ⟨m, rfl⟩ := Nat.exists_eq_succ_of_ne_zero hn
          intro hempty
          have hlist := congrArg String.toList hempty
          simp at hlist
        · exact value_ne_empty_of_scanFrom classes cs (n - 1) (place + 1) t ht hr

/-! ## Readings and tables -/

/-- Tokens that are accepted have a formula, and its variables are the names that are collected. -/
theorem Reading.exists_of_ofTokens {tokens : List Token} {p : Polish}
    (h : Polish.ofTokens tokens = .ok p) : ∃ f, Formula.ofPolish p.tokens = .ok f ∧
      f.CoveredBy p.names.names ∧ Reading.ofTokens tokens = .ok ⟨p.tokens, p.names, f⟩ := by
  obtain ⟨y, place, hadvance, hfinish⟩ := Yard.exists_advance_of_run h
  obtain ⟨f, hf, -⟩ := Yard.exists_formula hadvance hfinish
  refine ⟨f, hf, Formula.coveredBy_of_ofPolish hf (Yard.names_of_finish hadvance hfinish).1, ?_⟩
  unfold Reading.ofTokens Reading.ofPolish
  rw [h]
  show ((Formula.ofPolish p.tokens).mapError _).map _ = _
  rw [hf]
  rfl

theorem Reading.ofTokens_error {tokens : List Token} {e : ReadError}
    (h : Polish.ofTokens tokens = .error e) : Reading.ofTokens tokens = .error e := by
  unfold Reading.ofTokens
  rw [h]
  rfl

/-- **What a text is read as, in any language**: its formula is covered by the names, and neither
the text nor a name is empty. -/
theorem Lexer.coveredBy_of_read {lexer : Lexer} {text : String} {r : Reading}
    (hr : lexer.read text = .ok r) :
    r.formula.CoveredBy r.names.names ∧ (∀ x ∈ r.names.names, x ≠ "") ∧ text ≠ "" := by
  obtain ⟨p, hscan, hpolish⟩ := exists_of_bind_eq_ok hr
  obtain ⟨f, hformula, rfl⟩ := exists_of_map_eq_ok hpolish
  have hf := eq_ok_of_mapError_eq_ok hformula
  obtain ⟨read, y, place, hy, hp, htokens⟩ := Polish.exists_advance_of_ofScan hscan
  obtain ⟨hcollected, hnames⟩ := Yard.names_of_finish hy hp
  refine ⟨Formula.coveredBy_of_ofPolish hf hcollected, fun x hx => ?_, ?_⟩
  · obtain ⟨t, ht, hrole, rfl⟩ := hnames x hx
    have hmem := (List.mem_filter.mp (htokens t ht hrole)).1
    exact value_ne_empty_of_scanFrom lexer.classes text.toList 0 0 t hmem hrole
  · rintro rfl
    have hempty : Polish.ofScan (lexer.scan "") = .error (.parse (.emptyExpression 0)) := rfl
    rw [hempty] at hscan
    cases hscan

/-- What every table of a text has: names that cover its formula, and no empty heading. -/
structure Table.Tabular (t : Table) : Prop where
  covered : t.formula.CoveredBy t.names
  names_ne_empty : ∀ x ∈ t.names, x ≠ ""
  text_ne_empty : t.text ≠ ""

/-- The table of a text is made of what the text is read as. -/
theorem Table.eq_of_generate {lexer : Lexer} {text : String} {limit : Int} {t : Table}
    (h : Table.generate lexer text limit = .ok t) :
    ∃ r, lexer.read text = .ok r ∧ t = ⟨text, r.formula, .growing r.names⟩ := by
  obtain ⟨r, hread, htable⟩ := exists_of_bind_eq_ok h
  obtain ⟨u, -, rfl⟩ := exists_of_map_eq_ok (eq_ok_of_mapError_eq_ok htable)
  exact ⟨r, eq_ok_of_mapError_eq_ok hread, rfl⟩

/-- **Every table of a text is tabular**, in any language. -/
theorem Table.tabular_of_generate {lexer : Lexer} {text : String} {limit : Int} {t : Table}
    (h : Table.generate lexer text limit = .ok t) : t.Tabular := by
  obtain ⟨r, hr, rfl⟩ := eq_of_generate h
  obtain ⟨hcovered, hnames, htext⟩ := Lexer.coveredBy_of_read hr
  exact ⟨hcovered, hnames, htext⟩

end Propositional
