import Mathlib.Algebra.Ring.Nat
import Propositional.Text.Utf8

/-!
# Decoding is the reverse of encoding

The machine that decodes is compared with the encoding of characters, which says nothing of states
or of faults. Its states are those inside the bytes of some character: a byte that it takes goes on
with a character, and it takes all bytes of one.

* `Leads`, `furtherBytes`, `Leads.encode_eq` — the bytes of a character: the first one, and a digit
  in each of the others.
* `Utf8State.Begins` — a state inside a character. `Utf8State.Begins.next` goes on with the character,
  `Utf8State.Begins.exists_of_accepts` with any byte that is accepted.
* `Begun` — bytes that stand for no character yet, but could begin one.
* `decodeUtf8_eq_ok_iff` — what is decoded, by what the bytes encode.
-/

namespace Propositional

/-- The bytes that stand for some characters. -/
def encodeUtf8 (cs : List Char) : List UInt8 := cs.flatMap String.utf8EncodeChar

theorem encodeUtf8_cons (c : Char) (cs : List Char) :
    encodeUtf8 (c :: cs) = String.utf8EncodeChar c ++ encodeUtf8 cs := List.flatMap_cons

theorem encodeUtf8_append (cs ds : List Char) :
    encodeUtf8 (cs ++ ds) = encodeUtf8 cs ++ encodeUtf8 ds := List.flatMap_append

/-- Some bytes of a character, but not all, or none. Half of a surrogate pair is no character, but
this is not seen from its first two bytes. -/
inductive Begun : List UInt8 → Prop where
  | character {c : Char} {bytes more : List UInt8} (hmore : more ≠ [])
    (h : String.utf8EncodeChar c = bytes ++ more) : Begun bytes
  | surrogate {b : UInt8} (hlow : 0xa0 ≤ b.toNat) (hhigh : b.toNat < 0xc0) : Begun [0xed, b]

/-! ## The bytes of a character -/

/-- The last `k` digits of a number in base 64, each as a further byte of a character. -/
def furtherBytes (n : Nat) : Nat → List UInt8
  | 0 => []
  | k + 1 => UInt8.ofNat (0x80 + n / 64 ^ k % 64) :: furtherBytes n k

/-- The first byte of the character with the number `n`, and how many further bytes it has. -/
inductive Leads (n : Nat) (b : UInt8) : Nat → Prop where
  | one (hmax : n < 0x80) (hb : b.toNat = n) : Leads n b 0
  | two (hmin : 0x80 ≤ n) (hmax : n < 0x800) (hb : b.toNat = 0xc0 + n / 64) : Leads n b 1
  | three (hmin : 0x800 ≤ n) (hmax : n < 0x10000) (hb : b.toNat = 0xe0 + n / 4096) : Leads n b 2
  | four (hmin : 0x10000 ≤ n) (hmax : n < 0x110000) (hb : b.toNat = 0xf0 + n / 262144) :
    Leads n b 3

theorem toNat_digit (n : Nat) : (UInt8.ofNat (0x80 + n % 64)).toNat = 0x80 + n % 64 := by
  rw [UInt8.toNat_ofNat']
  omega

theorem div_pow_succ (n j : Nat) : n / 64 ^ (j + 1) = n / 64 ^ j / 64 := by
  rw [Nat.pow_succ, Nat.div_div_eq_div_mul]

/-- The digits before the last `j` ones are those of the number without these. -/
theorem furtherBytes_add (n j : Nat) : ∀ i : Nat,
    furtherBytes n (i + j) = furtherBytes (n / 64 ^ j) i ++ furtherBytes n j
  | 0 => by rw [Nat.zero_add, furtherBytes, List.nil_append]
  | i + 1 => by
    rw [Nat.add_right_comm, furtherBytes, furtherBytes, furtherBytes_add n j i, List.cons_append,
      Nat.div_div_eq_div_mul, ← Nat.pow_add, Nat.add_comm j i]

/-- Characters are numbered without the halves of surrogate pairs. -/
theorem toNat_cases (c : Char) : c.toNat < 0xd800 ∨ 0xdfff < c.toNat ∧ c.toNat < 0x110000 :=
  c.valid

theorem exists_toNat_eq {n : Nat} (h : n < 0xd800 ∨ 0xdfff < n ∧ n < 0x110000) :
    ∃ c : Char, c.toNat = n := ⟨Char.ofNatAux n h, rfl⟩

theorem exists_leads (c : Char) : ∃ b k, Leads c.toNat b k := by
  have hvalid := toNat_cases c
  by_cases hone : c.toNat < 0x80
  · exact ⟨.ofNat c.toNat, 0, .one hone (by rw [UInt8.toNat_ofNat']; omega)⟩
  by_cases htwo : c.toNat < 0x800
  · exact ⟨.ofNat (0xc0 + c.toNat / 64), 1, .two (by omega) htwo
      (by rw [UInt8.toNat_ofNat']; omega)⟩
  by_cases hthree : c.toNat < 0x10000
  · exact ⟨.ofNat (0xe0 + c.toNat / 4096), 2, .three (by omega) hthree
      (by rw [UInt8.toNat_ofNat']; omega)⟩
  · exact ⟨.ofNat (0xf0 + c.toNat / 262144), 3, .four (by omega) (by omega)
      (by rw [UInt8.toNat_ofNat']; omega)⟩

/-- **A character is encoded by its first byte and its digits.** -/
theorem Leads.encode_eq {c : Char} {b : UInt8} {k : Nat} (h : Leads c.toNat b k) :
    String.utf8EncodeChar c = b :: furtherBytes c.toNat k := by
  have hnat : c.val.toNat = c.toNat := rfl
  unfold String.utf8EncodeChar
  cases h with
  | one hmax hb =>
    rw [if_pos (by omega)]
    simp [furtherBytes, ← UInt8.toNat_inj]
    omega
  | two hmin hmax hb =>
    rw [if_neg (by omega), if_pos (by omega)]
    simp [furtherBytes, ← UInt8.toNat_inj]
    omega
  | three hmin hmax hb =>
    rw [if_neg (by omega), if_neg (by omega), if_pos (by omega)]
    simp [furtherBytes, ← UInt8.toNat_inj]
    omega
  | four hmin hmax hb =>
    rw [if_neg (by omega), if_neg (by omega), if_neg (by omega)]
    simp [furtherBytes, ← UInt8.toNat_inj]
    omega

/-- A number with another digit in the `j`-th place. -/
def withDigit (n j d : Nat) : Nat := (n / 64 ^ (j + 1) * 64 + d) * 64 ^ j + n % 64 ^ j

theorem withDigit_div (n j d : Nat) : withDigit n j d / 64 ^ j = n / 64 ^ (j + 1) * 64 + d := by
  have hpos : 0 < 64 ^ j := Nat.pow_pos (by decide)
  have hlt : n % 64 ^ j < 64 ^ j := Nat.mod_lt n hpos
  rw [withDigit, Nat.mul_comm, Nat.mul_add_div hpos, Nat.div_eq_of_lt hlt, Nat.add_zero]

/-! ## The states of the machine -/

namespace Utf8State

theorem lead_eq_some_iff {b : UInt8} {s : Utf8State} : lead b = some s ↔
    (b.toNat < 0x80 ∧ s = ⟨[b], 0, b.toNat⟩) ∨
    (0xc2 ≤ b.toNat ∧ b.toNat < 0xe0 ∧ s = ⟨[b], 1, b.toNat - 0xc0⟩) ∨
    (0xe0 ≤ b.toNat ∧ b.toNat < 0xf0 ∧ s = ⟨[b], 2, b.toNat - 0xe0⟩) ∨
    (0xf0 ≤ b.toNat ∧ b.toNat < 0xf5 ∧ s = ⟨[b], 3, b.toNat - 0xf0⟩) := by
  simp only [lead, Bool.and_eq_true, decide_eq_true_eq]
  constructor
  · intro h
    split at h
    · rename_i hone
      exact .inl ⟨hone, (Option.some.inj h).symm⟩
    split at h
    · rename_i htwo
      exact .inr (.inl ⟨htwo.1, htwo.2, (Option.some.inj h).symm⟩)
    split at h
    · rename_i hthree
      exact .inr (.inr (.inl ⟨hthree.1, hthree.2, (Option.some.inj h).symm⟩))
    split at h
    · rename_i hfour
      exact .inr (.inr (.inr ⟨hfour.1, hfour.2, (Option.some.inj h).symm⟩))
    · cases h
  · rintro (⟨h, rfl⟩ | ⟨h, h', rfl⟩ | ⟨h, h', rfl⟩ | ⟨h, h', rfl⟩)
    · rw [if_pos h]
    · rw [if_neg (by omega), if_pos ⟨h, h'⟩]
    · rw [if_neg (by omega), if_neg (by omega), if_pos ⟨h, h'⟩]
    · rw [if_neg (by omega), if_neg (by omega), if_neg (by omega), if_pos ⟨h, h'⟩]

theorem accepts_iff {s : Utf8State} {b : UInt8} : s.accepts b = true ↔
    0x80 ≤ b.toNat ∧ b.toNat < 0xc0 ∧ (s.seen = [0xe0] → 0xa0 ≤ b.toNat) ∧
      (s.seen = [0xed] → b.toNat < 0xa0) ∧ (s.seen = [0xf0] → 0x90 ≤ b.toNat) ∧
        (s.seen = [0xf4] → b.toNat < 0x90) := by
  unfold accepts
  split <;> simp_all [and_assoc]

/-- The state inside a character, behind its first byte and `i` further ones, with `j` to come. -/
inductive Begins (c : Char) : Utf8State → Prop where
  | mk {b : UInt8} (i j : Nat) (h : Leads c.toNat b (i + j)) :
    Begins c ⟨b :: furtherBytes (c.toNat / 64 ^ j) i, j, c.toNat / 64 ^ j⟩

variable {s s' : Utf8State} {c : Char} {b : UInt8}

theorem Begins.encode_eq (h : s.Begins c) :
    String.utf8EncodeChar c = s.seen ++ furtherBytes c.toNat s.owed := by
  obtain ⟨i, j, hlead⟩ := h
  rw [hlead.encode_eq, furtherBytes_add, List.cons_append]

theorem Begins.value_eq (h : s.Begins c) (howed : s.owed = 0) : Char.ofNat s.value = c := by
  obtain ⟨i, j, hlead⟩ := h
  subst howed
  rw [Nat.pow_zero, Nat.div_one]
  exact Char.ofNat_toNat c

/-- The first byte of a character leads into it. -/
theorem begins_of_leads {k : Nat} (h : Leads c.toNat b k) :
    ∃ s, lead b = some s ∧ s.seen = [b] ∧ s.owed = k ∧ s.Begins c := by
  have hbegins : Begins c ⟨[b], k, c.toNat / 64 ^ k⟩ := .mk 0 k (by rwa [Nat.zero_add])
  refine ⟨_, lead_eq_some_iff.mpr ?_, rfl, rfl, hbegins⟩
  cases h with
  | one hmax hb => exact .inl ⟨by omega, by simp [hb]⟩
  | two hmin hmax hb => exact .inr (.inl ⟨by omega, by omega, by simp [hb]⟩)
  | three hmin hmax hb => exact .inr (.inr (.inl ⟨by omega, by omega, by simp [hb]⟩))
  | four hmin hmax hb => exact .inr (.inr (.inr ⟨by omega, by omega, by simp [hb]⟩))

/-- A byte that leads anywhere leads into a character. -/
theorem exists_begins_of_lead (h : lead b = some s) : ∃ c, s.Begins c := by
  have hbegins : ∀ n k, (n < 0xd800 ∨ 0xdfff < n ∧ n < 0x110000) → Leads n b k →
      s = ⟨[b], k, n / 64 ^ k⟩ → ∃ c, s.Begins c := by
    intro n k hvalid hleads hs
    obtain ⟨c, rfl⟩ := exists_toNat_eq hvalid
    subst hs
    exact ⟨c, .mk 0 k (by rwa [Nat.zero_add])⟩
  rcases lead_eq_some_iff.mp h with ⟨hmax, hs⟩ | ⟨hmin, hmax, hs⟩ | ⟨hmin, hmax, hs⟩ |
    ⟨hmin, hmax, hs⟩
  · refine hbegins b.toNat 0 (by omega) (.one hmax rfl) (hs.trans ?_)
    simp
  · refine hbegins ((b.toNat - 0xc0) * 64) 1 (by omega) (.two (by omega) (by omega) (by omega))
      (hs.trans ?_)
    simp
  · refine hbegins (max ((b.toNat - 0xe0) * 4096) 0x800) 2 (by omega)
      (.three (by omega) (by omega) (by omega)) (hs.trans ?_)
    simp
    omega
  · refine hbegins (max ((b.toNat - 0xf0) * 262144) 0x10000) 3 (by omega)
      (.four (by omega) (by omega) (by omega)) (hs.trans ?_)
    simp
    omega

theorem owed_extend {j : Nat} (h : s.owed = j + 1) : (s.extend b).owed = j := by
  rw [extend, h]
  rfl

/-- The state inside a character, one digit further on. -/
theorem extend_mk {n i j : Nat} {a b : UInt8} (hb : b.toNat = 0x80 + n / 64 ^ j % 64) :
    extend ⟨a :: furtherBytes (n / 64 ^ (j + 1)) i, j + 1, n / 64 ^ (j + 1)⟩ b =
      ⟨a :: furtherBytes (n / 64 ^ j) (i + 1), j, n / 64 ^ j⟩ := by
  have hlast : [b] = furtherBytes (n / 64 ^ j) 1 := by
    simp [furtherBytes, ← UInt8.toNat_inj, hb]
    omega
  have hvalue : n / 64 ^ (j + 1) * 64 + (b.toNat - 0x80) = n / 64 ^ j := by
    rw [div_pow_succ]
    omega
  have hseen := furtherBytes_add (n / 64 ^ j) 1 i
  rw [Nat.pow_one, ← div_pow_succ, ← hlast] at hseen
  unfold extend
  rw [hvalue, hseen]
  rfl

/-- The second byte is restricted behind four of the first bytes: where the number would be too
small for its length, half of a surrogate pair, or too large. -/
theorem accepts_mk_iff {a b : UInt8} {n k i j m : Nat} (hlead : Leads n a k) :
    accepts ⟨a :: furtherBytes m i, j, m⟩ b = true ↔ 0x80 ≤ b.toNat ∧ b.toNat < 0xc0 ∧
      (i = 0 → (k = 2 → n / 4096 = 0 → 0xa0 ≤ b.toNat) ∧
        (k = 2 → n / 4096 = 0xd → b.toNat < 0xa0) ∧
        (k = 3 → n / 262144 = 0 → 0x90 ≤ b.toNat) ∧
        (k = 3 → n / 262144 = 4 → b.toNat < 0x90)) := by
  rw [accepts_iff]
  cases i with
  | succ i => simp [furtherBytes]
  | zero =>
    simp only [furtherBytes, List.cons.injEq, and_true, ← UInt8.toNat_inj, true_implies]
    show _ ∧ _ ∧ (a.toNat = 0xe0 → _) ∧ (a.toNat = 0xed → _) ∧ (a.toNat = 0xf0 → _) ∧
      (a.toNat = 0xf4 → _) ↔ _
    cases hlead <;> omega

/-- **Every byte of a character is taken** behind the ones before it. -/
theorem Begins.next {j : Nat} (h : s.Begins c) (howed : s.owed = j + 1)
    (hb : b.toNat = 0x80 + c.toNat / 64 ^ j % 64) :
    s.next? b = some (s.extend b) ∧ (s.extend b).Begins c := by
  have hvalid := toNat_cases c
  obtain ⟨i, k, hlead⟩ := h
  obtain rfl : k = j + 1 := howed
  refine ⟨?_, ?_⟩
  · unfold next?
    rw [if_neg (Nat.succ_ne_zero j), if_pos]
    rw [accepts_mk_iff hlead]
    refine ⟨by omega, by omega, ?_⟩
    rintro rfl
    generalize hk : 0 + (j + 1) = k at hlead
    cases hlead with
    | one => omega
    | two => omega
    | three hmin hmax =>
      obtain rfl : j = 1 := by omega
      omega
    | four hmin hmax =>
      obtain rfl : j = 2 := by omega
      omega
  · rw [extend_mk hb]
    exact .mk (i + 1) j (by rwa [Nat.add_right_comm, Nat.add_assoc])

/-- **A byte that is accepted goes on with some character**: with the one that has the digit of the
byte in the place of its own. -/
theorem Begins.exists_of_accepts {j : Nat} (h : s.Begins c) (howed : s.owed = j + 1)
    (hb : s.accepts b = true) : ∃ c', (s.extend b).Begins c' := by
  have hvalid := toNat_cases c
  obtain @⟨a, i, k, hlead⟩ := h
  obtain rfl : k = j + 1 := howed
  obtain ⟨hlow, hhigh, hb⟩ := (accepts_mk_iff hlead).mp hb
  obtain ⟨n, hn⟩ : ∃ n, n = withDigit c.toNat j (b.toNat - 0x80) := ⟨_, rfl⟩
  have hdiv := withDigit_div c.toNat j (b.toNat - 0x80)
  have hsame : n / 64 ^ (j + 1) = c.toNat / 64 ^ (j + 1) := by
    rw [div_pow_succ, hn, hdiv]
    omega
  have hother : (n < 0xd800 ∨ 0xdfff < n ∧ n < 0x110000) ∧ Leads n a (i + (j + 1)) := by
    unfold withDigit at hn
    clear hdiv hsame
    generalize hk : i + (j + 1) = k at hlead hb ⊢
    cases hlead with
    | one => omega
    | two hmin hmax ha =>
      obtain rfl : j = 0 := by omega
      exact ⟨by omega, .two (by omega) (by omega) (by omega)⟩
    | three hmin hmax ha =>
      obtain rfl | rfl : j = 0 ∨ j = 1 := by omega
      · exact ⟨by omega, .three (by omega) (by omega) (by omega)⟩
      · exact ⟨by omega, .three (by omega) (by omega) (by omega)⟩
    | four hmin hmax ha =>
      obtain rfl | rfl | rfl : j = 0 ∨ j = 1 ∨ j = 2 := by omega
      · exact ⟨by omega, .four (by omega) (by omega) (by omega)⟩
      · exact ⟨by omega, .four (by omega) (by omega) (by omega)⟩
      · exact ⟨by omega, .four (by omega) (by omega) (by omega)⟩
  obtain ⟨hvalid', hleads⟩ := hother
  obtain ⟨c', hc'⟩ := exists_toNat_eq hvalid'
  rw [← hn, ← hc'] at hdiv
  rw [← hc'] at hleads hsame
  rw [← hsame, extend_mk (by omega)]
  exact ⟨c', .mk (i + 1) j (by rwa [Nat.add_right_comm, Nat.add_assoc])⟩

/-- The bytes of a character that a state stands inside of. -/
def held (s : Utf8State) : List UInt8 := if s.owed = 0 then [] else s.seen

/-- A byte that is taken, first or further, goes on with some character. -/
theorem begins_of_next? (h : s.owed ≠ 0 → ∃ c, s.Begins c) (hnext : s.next? b = some s') :
    s'.seen = s.held ++ [b] ∧ ∃ c, s'.Begins c := by
  unfold next? at hnext
  unfold held
  split at hnext
  · rename_i howed
    obtain ⟨c, hc⟩ := exists_begins_of_lead hnext
    rw [if_pos howed]
    rcases lead_eq_some_iff.mp hnext with ⟨-, rfl⟩ | ⟨-, -, rfl⟩ | ⟨-, -, rfl⟩ | ⟨-, -, rfl⟩ <;>
      exact ⟨rfl, c, hc⟩
  · rename_i howed
    split at hnext
    · rename_i haccepts
      cases hnext
      obtain ⟨c, hc⟩ := h howed
      obtain ⟨j, hj⟩ := Nat.exists_eq_succ_of_ne_zero howed
      rw [if_neg howed]
      exact ⟨rfl, hc.exists_of_accepts hj haccepts⟩
    · cases hnext

end Utf8State

/-! ## Characters that have been begun -/

theorem begun_nil : Begun [] := @Begun.character 'a' [] [0x61] (by simp) rfl

theorem begun_held {s : Utf8State} (h : s.owed ≠ 0 → ∃ c, s.Begins c) : Begun s.held := by
  unfold Utf8State.held
  split
  · exact begun_nil
  · rename_i howed
    obtain ⟨c, hc⟩ := h howed
    obtain ⟨j, hj⟩ := Nat.exists_eq_succ_of_ne_zero howed
    exact .character (by rw [hj, furtherBytes]; exact List.cons_ne_nil _ _) hc.encode_eq

theorem isSurrogateStart_iff {bytes : List UInt8} : isSurrogateStart bytes = true ↔
    ∃ b : UInt8, bytes = [0xed, b] ∧ 0xa0 ≤ b.toNat ∧ b.toNat < 0xc0 := by
  unfold isSurrogateStart
  split
  · simp
  · rename_i h
    refine iff_of_false nofun ?_
    rintro ⟨b, rfl, -⟩
    exact h b rfl

/-! ## What bytes encode is decoded -/

/-- Read from between two characters on, the bytes give the characters, and `tail` is left. -/
def Decodes (bytes : List UInt8) (cs : List Char) (tail : List UInt8) : Prop :=
  ∀ (s : Utf8State) (position : Nat), s.owed = 0 → decodeUtf8From s position bytes = .ok (cs, tail)

variable {c : Char} {cs : List Char} {rest tail : List UInt8}

/-- A character is read to its end. By induction on the number of bytes that it still needs. -/
theorem Decodes.further (h : Decodes rest cs tail) : ∀ (j : Nat) {s s' : Utf8State} {b : UInt8}
    (position : Nat), s.next? b = some s' → s'.Begins c → s'.owed = j →
      decodeUtf8From s position (b :: (furtherBytes c.toNat j ++ rest)) = .ok (c :: cs, tail)
  | 0, s, s', b, position, hnext, hbegins, howed => by
    rw [decodeUtf8From, hnext]
    simp only [furtherBytes, List.nil_append, h s' _ howed, howed, hbegins.value_eq howed, if_true]
    rfl
  | j + 1, s, s', b, position, hnext, hbegins, howed => by
    obtain ⟨hnext', hbegins'⟩ := hbegins.next howed (toNat_digit _)
    have hmore := h.further j (position + 1) hnext' hbegins' (Utf8State.owed_extend howed)
    rw [decodeUtf8From, hnext]
    simp only [furtherBytes, List.cons_append, hmore, howed, Nat.add_one_ne_zero, if_false]
    rfl

/-- A character of which some bytes are missing is left. By induction on the bytes that there
are. -/
theorem decodeUtf8From_unfinished : ∀ (bytes : List UInt8) {more : List UInt8}
    {s s' : Utf8State} {b : UInt8} (position : Nat), s.next? b = some s' → s'.Begins c →
      furtherBytes c.toNat s'.owed = bytes ++ more → more ≠ [] →
        decodeUtf8From s position (b :: bytes) = .ok ([], s'.seen ++ bytes)
  | [], more, s, s', b, position, hnext, hbegins, hfurther, hmore => by
    have howed : s'.owed ≠ 0 := by
      intro h
      rw [h] at hfurther
      exact hmore hfurther.symm
    rw [decodeUtf8From, hnext]
    simp [decodeUtf8From, howed, pure, Except.pure, bind, Except.bind]
  | d :: bytes, more, s, s', b, position, hnext, hbegins, hfurther, hmore => by
    obtain ⟨j, howed⟩ : ∃ j, s'.owed = j + 1 := by
      apply Nat.exists_eq_succ_of_ne_zero
      intro h
      rw [h] at hfurther
      cases hfurther
    rw [howed, furtherBytes, List.cons_append, List.cons.injEq] at hfurther
    obtain ⟨rfl, hfurther⟩ := hfurther
    obtain ⟨hnext', hbegins'⟩ := hbegins.next howed (toNat_digit _)
    have howed' := Utf8State.owed_extend (b := UInt8.ofNat (0x80 + c.toNat / 64 ^ j % 64)) howed
    have hrest := decodeUtf8From_unfinished bytes (position + 1) hnext' hbegins'
      (by rw [howed', hfurther]) hmore
    rw [decodeUtf8From, hnext]
    simp only [hrest, howed, Nat.add_one_ne_zero, if_false]
    simp [Utf8State.extend, pure, Except.pure, bind, Except.bind]

theorem decodes_of_begun (h : Begun tail) : Decodes tail [] tail := by
  intro s position howed
  cases h with
  | @character c _ more hmore h =>
    cases tail with
    | nil =>
      rw [decodeUtf8From, if_pos howed]
    | cons b bytes =>
      obtain ⟨a, k, hlead⟩ := exists_leads c
      rw [hlead.encode_eq, List.cons_append, List.cons.injEq] at h
      obtain ⟨rfl, hfurther⟩ := h
      obtain ⟨s', hs', hseen, howed', hbegins⟩ := Utf8State.begins_of_leads hlead
      have hnext : s.next? a = some s' := by rw [Utf8State.next?, if_pos howed, hs']
      rw [decodeUtf8From_unfinished bytes position hnext hbegins (by rw [howed', hfurther]) hmore,
        hseen]
      rfl
  | @surrogate b hlow hhigh =>
    have hlead : s.next? 0xed = some ⟨[0xed], 2, 0xd⟩ := by
      rw [Utf8State.next?, if_pos howed]
      rfl
    have hrefused : Utf8State.next? ⟨[0xed], 2, 0xd⟩ b = none := by
      rw [Utf8State.next?, if_neg (by decide), if_neg]
      rw [Utf8State.accepts_iff]
      intro h
      have hbound := h.2.2.2.1 rfl
      omega
    have hstart : isSurrogateStart ([0xed] ++ [b]) = true :=
      isSurrogateStart_iff.mpr ⟨b, rfl, hlow, hhigh⟩
    rw [decodeUtf8From, hlead]
    simp only [decodeUtf8From, hrefused, hstart]
    rfl

theorem decodes_encode (h : Begun tail) : ∀ cs, Decodes (encodeUtf8 cs ++ tail) cs tail
  | [] => decodes_of_begun h
  | c :: cs => by
    intro s position howed
    obtain ⟨b, k, hlead⟩ := exists_leads c
    obtain ⟨s', hs', -, howed', hbegins⟩ := Utf8State.begins_of_leads hlead
    have hnext : s.next? b = some s' := by rw [Utf8State.next?, if_pos howed, hs']
    rw [encodeUtf8_cons, hlead.encode_eq, List.append_assoc, List.cons_append]
    exact (decodes_encode h cs).further k position hnext hbegins howed'

/-! ## What is decoded is encoded -/

/-- What is read from a state on is encoded by the bytes, those in front of it included. By
induction on the bytes; the state stays inside some character. -/
theorem encode_of_decodeUtf8From : ∀ (bytes : List UInt8) {s : Utf8State} {position : Nat}
    {cs : List Char} {tail : List UInt8}, (s.owed ≠ 0 → ∃ c, s.Begins c) →
      decodeUtf8From s position bytes = .ok (cs, tail) →
        s.held ++ bytes = encodeUtf8 cs ++ tail ∧ Begun tail
  | [], s, position, cs, tail, hs, h => by
    rw [decodeUtf8From] at h
    cases h
    exact ⟨List.append_nil _, begun_held hs⟩
  | b :: rest, s, position, cs, tail, hs, h => by
    rw [decodeUtf8From] at h
    cases hnext : s.next? b with
    | none =>
      rw [hnext] at h
      simp only at h
      split at h
      · cases h
      · rename_i howed
        split at h
        · rename_i hcut
          rw [Bool.and_eq_true, List.isEmpty_iff] at hcut
          obtain ⟨rfl, hstart⟩ := hcut
          cases h
          obtain ⟨d, hbytes, hlow, hhigh⟩ := isSurrogateStart_iff.mp hstart
          rw [Utf8State.held, if_neg howed, hbytes]
          exact ⟨rfl, .surrogate hlow hhigh⟩
        · cases h
    | some s' =>
      rw [hnext] at h
      obtain ⟨hseen, c, hc⟩ := Utf8State.begins_of_next? hs hnext
      simp only at h
      cases hrest : decodeUtf8From s' (position + 1) rest with
      | error e =>
        rw [hrest] at h
        cases h
      | ok found =>
        obtain ⟨cs', tail'⟩ := found
        rw [hrest] at h
        cases h
        obtain ⟨hbytes, hbegun⟩ := encode_of_decodeUtf8From rest (fun _ => ⟨c, hc⟩) hrest
        refine ⟨?_, hbegun⟩
        rw [List.append_cons, ← hseen]
        split
        · rename_i howed
          have hencode := hc.encode_eq
          rw [howed, furtherBytes, List.append_nil] at hencode
          rw [Utf8State.held, if_pos howed, List.nil_append] at hbytes
          rw [hc.value_eq howed, encodeUtf8_cons, hencode, List.append_assoc, hbytes]
        · rename_i howed
          rwa [Utf8State.held, if_neg howed] at hbytes

/-- **Decoding is the reverse of encoding**: it gives the characters that the bytes encode, up to the
beginning of one more. -/
theorem decodeUtf8_eq_ok_iff {bytes : List UInt8} :
    decodeUtf8 bytes = .ok (cs, tail) ↔ bytes = encodeUtf8 cs ++ tail ∧ Begun tail := by
  constructor
  · intro h
    exact encode_of_decodeUtf8From bytes (s := .between) (fun h => absurd rfl h) h
  · rintro ⟨rfl, hbegun⟩
    exact decodes_encode hbegun cs .between 0 rfl

end Propositional
