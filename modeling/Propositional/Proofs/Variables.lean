import Propositional.Proofs.Traversal
import Propositional.Proofs.YardReading

/-!
# The variables of an expression

The names that the yard collects and the variables of the formula that is read are the same list:
the identifiers before the end, each where it first occurs.

* `identifiers` — the identifiers among some tokens.
* `names_ofTokens` — the names that the yard has collected at the end.
* `IsReading.occurrences` — a reading has its variables in the order of the identifiers.
-/

namespace Propositional

/-- The name that a token adds to the variables. -/
def Token.name? (t : Token) : Option String :=
  if t.role = .identifier then some t.value else none

/-- The identifiers among some tokens, as they stand. -/
def identifiers (tokens : List Token) : List String := tokens.filterMap Token.name?

theorem identifiers_append (tokens more : List Token) :
    identifiers (tokens ++ more) = identifiers tokens ++ identifiers more :=
  List.filterMap_append

theorem identifiers_name (t : NameToken) (rest : List Token) :
    identifiers (t.val :: rest) = t.val.value :: identifiers rest :=
  List.filterMap_cons_some (by simp [Token.name?, t.property])

theorem identifiers_other {t : Token} (h : t.role ≠ .identifier) (rest : List Token) :
    identifiers (t :: rest) = identifiers rest :=
  List.filterMap_cons_none (by simp [Token.name?, h])

theorem OperatorToken.role_ne_identifier {n : Nat} (u : OperatorToken n) :
    u.token.role ≠ .identifier := by
  simp [u.role_eq]

/-! ## The names that the yard collects -/

namespace Yard

theorem Steps.names {y y' : Yard} {t : Token} (h : Steps y t y') :
    y'.names = y.names.addAll (identifiers [t]) := by
  cases h with
  | name t h =>
    rw [identifiers_name]
    rfl
  | opening t h =>
    rw [identifiers_other (by simp [t.property])]
    rfl
  | prefixed u h =>
    rw [identifiers_other u.role_ne_identifier]
    rfl
  | infixed b h left emitted hr =>
    rw [identifiers_other b.role_ne_identifier]
    rfl
  | closing c h held o rest hp =>
    rw [identifiers_other (by simp [c.property])]
    rfl

theorem names_of_advance {y y' : Yard} {tokens : List Token} (h : y.advance tokens = .ok y') :
    y'.names = y.names.addAll (identifiers tokens) := by
  have hnone : y.names = y.names.addAll (identifiers []) := rfl
  refine advance_induction
    (motive := fun z read => z.names = y.names.addAll (identifiers read)) ?_ hnone h
  intro z z' t read hread ht
  rw [ht.names, hread, identifiers_append, NameSet.addAll, NameSet.addAll, NameSet.addAll,
    List.foldl_append]

end Yard

/-- **The yard collects the identifiers before the end, each where it first occurs.** -/
theorem names_ofTokens {tokens : List Token} {p : Polish} (h : Polish.ofTokens tokens = .ok p) :
    p.names = .ofList (identifiers (beforeEnd tokens)) := by
  obtain ⟨y, place, hadvance, hfinish⟩ := Yard.exists_advance_of_run h
  obtain ⟨-, held, -, rfl⟩ := Yard.eq_of_finish hfinish
  exact Yard.names_of_advance hadvance

/-! ## The variables of a reading -/

mutual

theorem Operand.Reads.occurrences : ∀ {x : Operand} {f : Formula}, x.Reads f →
    f.occurrences = identifiers x.tokens
  | _, _, .name t => by
    rw [Operand.tokens, identifiers_name]
    rfl
  | _, _, .prefixed u h => by
    rw [Operand.tokens, identifiers_other u.role_ne_identifier, ← h.occurrences]
    rfl
  | _, _, .group o c h => by
    rw [Operand.tokens, identifiers_other (by simp [o.property]), identifiers_append,
      identifiers_other (by simp [c.property]), h.occurrences]
    simp [identifiers]

theorem Chain.Reads.occurrences : ∀ {e : Chain} {f : Formula}, e.Reads f →
    f.occurrences = identifiers e.tokens
  | _, _, .last h => h.occurrences
  | _, _, .split hsplit hl hr => by
    rw [Chain.tokens_join, identifiers_append, identifiers_other (OperatorToken.role_ne_identifier _),
      ← hl.occurrences, ← hr.occurrences]
    rfl

end

/-- **A reading has its variables in the order in which the identifiers stand.** -/
theorem IsReading.occurrences {tokens : List Token} {f : Formula} (h : IsReading tokens f) :
    f.occurrences = identifiers tokens := by
  obtain ⟨e, rfl, hreads⟩ := h
  exact hreads.occurrences

end Propositional
