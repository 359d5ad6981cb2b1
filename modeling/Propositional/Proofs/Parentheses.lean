import Mathlib.Data.List.Induction
import Propositional.Token.Basic

/-!
# Parentheses and their partners

An opening and a closing parenthesis are partners if the tokens between them are balanced. Whether a
parenthesis has a partner depends on one side of it only: the partner of a closing one stands before
it, and that of an opening one behind it.

* `depth`, `Balanced` — how many parentheses are open behind some tokens.
* `HasOpening`, `HasClosing` — a partner before a closing, and behind an opening parenthesis.
* `AllOpened`, `AllClosed` — every closing, and every opening parenthesis has a partner.
* `Balanced.allClosed`, `Balanced.not_hasClosing` — opening parentheses among balanced tokens, and
  in front of them.
* `Opened` — the parentheses without a partner that some tokens have opened, the latest first.
* `Opened.allOpened`, `Opened.not_hasOpening` — closing parentheses among such tokens, and behind
  them.
-/

namespace Propositional

/-! ## Depth -/

/-- How many parentheses are open behind the tokens, when so many are open before them; nothing if
one of the tokens closes more than is open. -/
def depth : Nat → List Token → Option Nat
  | d, [] => some d
  | d, t :: ts =>
    if t.role = .opening then depth (d + 1) ts
    else if t.role = .closing then if d = 0 then none else depth (d - 1) ts
    else depth d ts

/-- What the tokens open they close, and they close nothing else. -/
def Balanced (ts : List Token) : Prop := depth 0 ts = some 0

/-- The token is no parenthesis. -/
def Token.IsNeutral (t : Token) : Prop := t.role ≠ .opening ∧ t.role ≠ .closing

section

variable {t : Token}

@[simp] theorem depth_nil (d : Nat) : depth d [] = some d := rfl

theorem depth_opening (h : t.role = .opening) (d : Nat) (ts : List Token) :
    depth d (t :: ts) = depth (d + 1) ts := by
  rw [depth, if_pos h]

theorem depth_closing_zero (h : t.role = .closing) (ts : List Token) :
    depth 0 (t :: ts) = none := by
  simp [depth, h]

theorem depth_closing_succ (h : t.role = .closing) (d : Nat) (ts : List Token) :
    depth (d + 1) (t :: ts) = depth d ts := by
  simp [depth, h]

theorem depth_neutral (h : t.IsNeutral) (d : Nat) (ts : List Token) :
    depth d (t :: ts) = depth d ts := by
  rw [depth, if_neg h.1, if_neg h.2]

/-- A token opens, closes or does neither. -/
theorem Token.paren_cases (t : Token) :
    t.role = .opening ∨ t.role = .closing ∨ t.IsNeutral := by
  by_cases ho : t.role = .opening
  · exact .inl ho
  · by_cases hc : t.role = .closing
    · exact .inr (.inl hc)
    · exact .inr (.inr ⟨ho, hc⟩)

end

theorem depth_append (ts us : List Token) : ∀ d : Nat,
    depth d (ts ++ us) = (depth d ts).bind fun e => depth e us := by
  induction ts with
  | nil => exact fun d => rfl
  | cons t ts ih =>
    intro d
    rw [List.cons_append]
    rcases t.paren_cases with ho | hc | hn
    · rw [depth_opening ho, depth_opening ho, ih]
    · cases d with
      | zero =>
        rw [depth_closing_zero hc, depth_closing_zero hc]
        rfl
      | succ d => rw [depth_closing_succ hc, depth_closing_succ hc, ih]
    · rw [depth_neutral hn, depth_neutral hn, ih]

/-- Tokens do the same above parentheses that are open already. -/
theorem depth_add {ts : List Token} (k : Nat) : ∀ {d e : Nat}, depth d ts = some e →
    depth (d + k) ts = some (e + k) := by
  induction ts with
  | nil =>
    intro d e h
    rw [depth_nil, Option.some.injEq] at h
    rw [depth_nil, h]
  | cons t ts ih =>
    intro d e h
    rcases t.paren_cases with ho | hc | hn
    · rw [depth_opening ho] at h ⊢
      rw [Nat.add_right_comm]
      exact ih h
    · cases d with
      | zero =>
        rw [depth_closing_zero hc] at h
        cases h
      | succ d =>
        rw [depth_closing_succ hc] at h
        rw [Nat.add_right_comm, depth_closing_succ hc]
        exact ih h
    · rw [depth_neutral hn] at h ⊢
      exact ih h

theorem Balanced.depth_eq {ts : List Token} (h : Balanced ts) (d : Nat) : depth d ts = some d := by
  have hd := depth_add d h
  rwa [Nat.zero_add] at hd

theorem balanced_nil : Balanced [] := rfl

theorem Balanced.append {ts us : List Token} (h : Balanced ts) (h' : Balanced us) :
    Balanced (ts ++ us) := by
  unfold Balanced
  rw [depth_append, h.depth_eq 0]
  exact h'

theorem balanced_neutral {t : Token} (h : t.IsNeutral) : Balanced [t] := depth_neutral h 0 []

theorem balanced_group {o c : Token} {inner : List Token} (ho : o.role = .opening)
    (hc : c.role = .closing) (h : Balanced inner) : Balanced (o :: inner ++ [c]) := by
  unfold Balanced
  rw [List.cons_append, depth_opening ho, depth_append, h.depth_eq 1]
  exact depth_closing_succ hc 0 []

/-! ## Partners -/

/-- A closing parenthesis behind these tokens has a partner among them. -/
def HasOpening (before : List Token) : Prop :=
  ∃ front o inner, before = front ++ o :: inner ∧ o.role = .opening ∧ Balanced inner

/-- An opening parenthesis in front of these tokens has a partner among them. -/
def HasClosing (after : List Token) : Prop :=
  ∃ inner c back, after = inner ++ c :: back ∧ c.role = .closing ∧ Balanced inner

/-- Every closing parenthesis among the tokens has a partner. -/
def AllOpened (tokens : List Token) : Prop :=
  ∀ before c after, tokens = before ++ c :: after → c.role = .closing → HasOpening before

/-- Every opening parenthesis among the tokens has a partner. -/
def AllClosed (tokens : List Token) : Prop :=
  ∀ before o after, tokens = before ++ o :: after → o.role = .opening → HasClosing after

/-- Where the depth falls below what it was in front of the tokens, some token closes what was open
in front of them. Of the parentheses that are open there, `k` are opened later. -/
theorem exists_closing_of_depth {ts : List Token} {d e : Nat} (he : e ≤ d) : ∀ {k : Nat},
    depth (d + 1 + k) ts = some e → ∃ inner c back, ts = inner ++ c :: back ∧
      c.role = .closing ∧ depth k inner = some 0 := by
  induction ts with
  | nil =>
    intro k h
    rw [depth_nil, Option.some.injEq] at h
    omega
  | cons t ts ih =>
    intro k h
    rcases t.paren_cases with ho | hc | hn
    · rw [depth_opening ho] at h
      obtain ⟨inner, c, back, rfl, hc, hinner⟩ := ih (k := k + 1) h
      exact ⟨t :: inner, c, back, rfl, hc, by rwa [depth_opening ho]⟩
    · cases k with
      | zero => exact ⟨[], t, ts, rfl, hc, rfl⟩
      | succ k =>
        rw [← Nat.add_assoc, depth_closing_succ hc] at h
        obtain ⟨inner, c, back, rfl, hc', hinner⟩ := ih h
        exact ⟨t :: inner, c, back, rfl, hc', by rwa [depth_closing_succ hc]⟩
    · rw [depth_neutral hn] at h
      obtain ⟨inner, c, back, rfl, hc, hinner⟩ := ih h
      exact ⟨t :: inner, c, back, rfl, hc, by rwa [depth_neutral hn]⟩

/-- **Whatever balanced tokens open has a partner among them.** -/
theorem Balanced.allClosed {ts : List Token} (h : Balanced ts) : AllClosed ts := by
  rintro before o after rfl ho
  unfold Balanced at h
  rw [depth_append] at h
  obtain ⟨d, -, hafter⟩ := Option.bind_eq_some_iff.mp h
  rw [depth_opening ho] at hafter
  exact exists_closing_of_depth (k := 0) (Nat.zero_le d) hafter

/-- **In front of balanced tokens nothing is closed.** -/
theorem Balanced.not_hasClosing {ts : List Token} (h : Balanced ts) : ¬ HasClosing ts := by
  rintro ⟨inner, c, back, rfl, hc, hinner⟩
  unfold Balanced at h
  rw [depth_append, hinner] at h
  have hnone : depth 0 (c :: back) = none := depth_closing_zero hc back
  rw [Option.bind_some, hnone] at h
  cases h

/-- Behind balanced tokens nothing is left to close. -/
theorem Balanced.not_hasOpening {ts : List Token} (h : Balanced ts) : ¬ HasOpening ts := by
  rintro ⟨front, o, inner, rfl, ho, hinner⟩
  unfold Balanced at h
  rw [depth_append] at h
  obtain ⟨d, -, hrest⟩ := Option.bind_eq_some_iff.mp h
  rw [depth_opening ho, hinner.depth_eq (d + 1)] at hrest
  cases hrest

/-! ## What is open -/

/-- The opening parentheses among the tokens that have no partner among them, the latest first. -/
inductive Opened : List Token → List Token → Prop where
  | balanced {ts : List Token} (h : Balanced ts) : Opened ts []
  | opening {read ts groups : List Token} {o : Token} (h : Opened read groups)
    (ho : o.role = .opening) (hts : Balanced ts) : Opened (read ++ o :: ts) (o :: groups)

namespace Opened

variable {read groups : List Token} {t : Token}

theorem start : Opened [] [] := .balanced balanced_nil

theorem append {ts : List Token} (h : Opened read groups) (hts : Balanced ts) :
    Opened (read ++ ts) groups := by
  cases h with
  | balanced h => exact .balanced (h.append hts)
  | opening h ho hrest =>
    rw [List.append_assoc, List.cons_append]
    exact .opening h ho (hrest.append hts)

theorem neutral (h : Opened read groups) (ht : t.IsNeutral) : Opened (read ++ [t]) groups :=
  h.append (balanced_neutral ht)

theorem push (h : Opened read groups) (ht : t.role = .opening) :
    Opened (read ++ [t]) (t :: groups) :=
  .opening h ht balanced_nil

/-- A closing parenthesis closes what was opened last. -/
theorem close {o : Token} (h : Opened read (o :: groups)) (ht : t.role = .closing) :
    Opened (read ++ [t]) groups := by
  cases h with
  | @opening before ts _ _ hbefore ho hts =>
    rw [List.append_assoc]
    exact hbefore.append (balanced_group ho ht hts)

theorem depth_eq (h : Opened read groups) : depth 0 read = some groups.length := by
  induction h with
  | balanced h => exact h
  | opening h ho hts ih =>
    rw [depth_append, ih, Option.bind_some, depth_opening ho, hts.depth_eq]
    rfl

/-- Tokens that close no more than is open leave some parentheses open. By induction on the tokens,
the last one first. -/
theorem exists_of_depth {ts : List Token} : ∀ {d : Nat}, depth 0 ts = some d →
    ∃ groups, Opened ts groups ∧ groups.length = d := by
  induction ts using List.reverseRecOn with
  | nil =>
    rintro d h
    cases h
    exact ⟨[], .start, rfl⟩
  | append_singleton ts t ih =>
    intro d h
    rw [depth_append] at h
    obtain ⟨e, hts, hlast⟩ := Option.bind_eq_some_iff.mp h
    obtain ⟨groups, hopened, rfl⟩ := ih hts
    rcases t.paren_cases with ho | hc | hn
    · rw [depth_opening ho] at hlast
      cases hlast
      exact ⟨t :: groups, hopened.push ho, rfl⟩
    · cases groups with
      | nil =>
        rw [List.length_nil, depth_closing_zero hc] at hlast
        cases hlast
      | cons o groups =>
        rw [List.length_cons, depth_closing_succ hc] at hlast
        cases hlast
        exact ⟨groups, hopened.close hc, rfl⟩
    · rw [depth_neutral hn] at hlast
      cases hlast
      exact ⟨groups, hopened.neutral hn, rfl⟩

/-- **Every parenthesis that was closed has a partner**, as long as nothing else was closed. -/
theorem allOpened (h : Opened read groups) : AllOpened read := by
  rintro before c after rfl hc
  have hdepth := h.depth_eq
  rw [depth_append] at hdepth
  obtain ⟨d, hbefore, hrest⟩ := Option.bind_eq_some_iff.mp hdepth
  obtain ⟨opened, hopened, rfl⟩ := exists_of_depth hbefore
  cases hopened with
  | balanced _ =>
    have hnone : depth 0 (c :: after) = none := depth_closing_zero hc after
    rw [List.length_nil, hnone] at hrest
    cases hrest
  | @opening front inner _ o _ ho hinner => exact ⟨front, o, inner, rfl, ho, hinner⟩

/-- Behind tokens that leave nothing open, a closing parenthesis has no partner. -/
theorem not_hasOpening (h : Opened read []) : ¬ HasOpening read := by
  cases h with
  | balanced h => exact h.not_hasOpening

end Opened

end Propositional
