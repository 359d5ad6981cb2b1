import Propositional.Proofs.Scanning

/-!
# A scan tiles its text

A language may be put together from any solid classes, and their pieces may overlap as they like.
Still the tokens of a text and the blanks between them cover every character once, up to the end of
the text or to the first place where no class has a token.

* `TokenClass.Covers` — a class has a token from one place of a text to another.
* `Blanks`, `Tiles` — blanks, and tokens with blanks between them, one behind the other.
* `Tiles.spans`, `Tiles.pairwise` — where the tokens of a tiling stand.
* `Scans.tiles` — a scan tiles what is left of a text; `scan_tiles` — the whole of it.
-/

namespace Propositional

/-! ## Parts of a text -/

/-- The part of a text from one place to another. -/
def part (text : String) (start stop : Int) : String :=
  String.ofList (slice text.toList start stop)

theorem slice_eq_take_drop {α : Type} (xs : List α) {start stop : Nat} (h : start ≤ stop)
    (hstop : stop ≤ xs.length) : slice xs start stop = (xs.drop start).take (stop - start) := by
  have hplace : ∀ i : Nat, i ≤ xs.length →
      (clamp 0 xs.length (fromFront xs.length i)).toNat = i := by
    intro i hi
    have hfront : fromFront xs.length i = i := if_neg (by omega)
    rw [hfront, clamp, if_neg (by omega), if_neg (by omega), Int.toNat_natCast]
  simp only [slice]
  rw [hplace start (by omega), hplace stop hstop, List.drop_take]

/-- Inside a text, a class looks for its token at the beginning of what is left. -/
theorem TokenClass.matchAt_of_le (c : TokenClass) {text : String} {place : Nat}
    (h : place ≤ text.length) : c.matchAt text place =
      (c.lexeme? (text.toList.drop place)).map fun found =>
        found.map fun n => (String.ofList ((text.toList.drop place).take n), (n : Int)) := by
  have hlen : text.toList.length = text.length := String.length_toList
  have hfront : fromFront text.toList.length place = place := if_neg (by omega)
  have hclamp : clamp 0 text.toList.length place = place := by
    rw [clamp, if_neg (by omega), if_neg (by omega)]
  unfold matchAt
  cases hc : c.pattern <;>
    simp only [hfront, hclamp, Int.toNat_natCast, Int.sub_self, Int.add_zero]

/-- The class has a token in the text that goes from the first place to the second. -/
structure TokenClass.Covers (c : TokenClass) (text : String) (start stop : Int) : Prop where
  nonneg : 0 ≤ start
  lt : start < stop
  le : stop ≤ text.length
  found : c.matchAt text start = .ok (some (part text start stop, stop - start))

theorem TokenClass.covers_of_lexeme? {c : TokenClass} {text : String} {place n : Nat}
    (h : c.lexeme? (text.toList.drop place) = .ok (some n)) (hpos : 0 < n)
    (hlen : place + n ≤ text.length) : c.Covers text place (place + n) := by
  have hlist : text.toList.length = text.length := String.length_toList
  refine ⟨by omega, by omega, by omega, ?_⟩
  have hpart : part text place (place + n) = String.ofList ((text.toList.drop place).take n) := by
    have hslice := slice_eq_take_drop text.toList (Nat.le_add_right place n) (by omega)
    rw [Nat.add_sub_cancel_left, Int.natCast_add] at hslice
    rw [part, hslice]
  have hwidth : (place : Int) + n - place = n := by omega
  rw [c.matchAt_of_le (by omega), h, hpart, hwidth]
  rfl

/-! ## Tilings -/

section

variable (classes : List TokenClass) (text : String)

/-- Tokens of blank classes stand one behind the other from the first place to the second. -/
inductive Blanks : Int → Int → Prop where
  | none (place : Int) : Blanks place place
  | blank {c : TokenClass} {place next stop : Int} (hc : c ∈ classes) (hblank : c.isBlank = true)
    (hcovers : c.Covers text place next) (hrest : Blanks next stop) : Blanks place stop

/-- The tokens stand one behind the other from the first place to the second, with nothing but
gaps before, between and behind them. -/
inductive Tiles : Int → List Token → Int → Prop where
  | last {place stop : Int} (hgap : Blanks classes text place stop) : Tiles place [] stop
  | token {t : Token} {ts : List Token} {place stop : Int}
    (hgap : Blanks classes text place t.start) (hcls : t.cls ∈ classes)
    (hblank : t.cls.isBlank = false) (hcovers : t.cls.Covers text t.start t.stop)
    (hvalue : t.value = part text t.start t.stop) (hrest : Tiles t.stop ts stop) :
    Tiles place (t :: ts) stop

end

section

variable {classes : List TokenClass} {text : String} {place stop : Int}

theorem Blanks.le (h : Blanks classes text place stop) : place ≤ stop := by
  induction h with
  | none place => exact Int.le_refl place
  | blank hc hblank hcovers hrest ih =>
    have := hcovers.lt
    omega

theorem Tiles.le {ts : List Token} (h : Tiles classes text place ts stop) : place ≤ stop := by
  induction h with
  | last hgap => exact hgap.le
  | token hgap hcls hblank hcovers hvalue hrest ih =>
    have := hgap.le
    have := hcovers.lt
    omega

/-- One more blank in front of a tiling. -/
theorem Tiles.blank {c : TokenClass} {next : Int} {ts : List Token} (hc : c ∈ classes)
    (hblank : c.isBlank = true) (hcovers : c.Covers text place next)
    (h : Tiles classes text next ts stop) : Tiles classes text place ts stop := by
  cases h with
  | last hgap => exact .last (.blank hc hblank hcovers hgap)
  | token hgap hcls hnot hcovers' hvalue hrest =>
    exact .token (.blank hc hblank hcovers hgap) hcls hnot hcovers' hvalue hrest

/-- **The tokens of a tiling are parts of the text**, none of them empty. -/
theorem Tiles.spans {ts : List Token} (h : Tiles classes text place ts stop) :
    ∀ t ∈ ts, place ≤ t.start ∧ t.start < t.stop ∧ t.stop ≤ stop ∧
      t.value = part text t.start t.stop := by
  induction h with
  | last hgap => simp
  | @token t ts place stop hgap hcls hblank hcovers hvalue hrest ih =>
    have hplace := hgap.le
    have hlt := hcovers.lt
    have hstop := hrest.le
    intro u hu
    rcases List.mem_cons.mp hu with rfl | hu
    · exact ⟨hplace, hlt, hstop, hvalue⟩
    · obtain ⟨hstart, hrest⟩ := ih u hu
      exact ⟨by omega, hrest⟩

/-- **No token of a tiling begins before the end of the one in front of it.** -/
theorem Tiles.pairwise {ts : List Token} (h : Tiles classes text place ts stop) :
    ts.Pairwise fun t u => t.stop ≤ u.start := by
  induction h with
  | last hgap => exact .nil
  | token hgap hcls hblank hcovers hvalue hrest ih =>
    exact .cons (fun u hu => (hrest.spans u hu).1) ih

theorem Tiles.cls_mem {ts : List Token} (h : Tiles classes text place ts stop) :
    ∀ t ∈ ts, t.cls ∈ classes ∧ t.cls.isBlank = false := by
  induction h with
  | last hgap => simp
  | token hgap hcls hblank hcovers hvalue hrest ih =>
    exact List.forall_mem_cons.mpr ⟨⟨hcls, hblank⟩, ih⟩

/-- A piece in front of a tiling: a blank widens the gap, and any other piece is a token. -/
theorem Tiles.cons {t : Token} {ts : List Token} (hcls : t.cls ∈ classes)
    (hcovers : t.cls.Covers text t.start t.stop) (hvalue : t.value = part text t.start t.stop)
    (h : Tiles classes text t.stop (ts.filter (!·.cls.isBlank)) stop) :
    Tiles classes text t.start ((t :: ts).filter (!·.cls.isBlank)) stop := by
  cases hblank : t.cls.isBlank with
  | true =>
    rw [List.filter_cons_of_neg (by simp [hblank])]
    exact h.blank hcls hblank hcovers
  | false =>
    rw [List.filter_cons_of_pos (by simp [hblank])]
    exact .token (.none t.start) hcls hblank hcovers hvalue h

end

/-! ## Scans -/

/-- **A scan tiles what is left of the text.** The pieces go on to the end, and the closing token
comes behind them, or they end at a character where no class has a token. By induction on the
pieces. -/
theorem Scans.tiles {classes : List TokenClass} {text : String} {place : Nat} {cs : List Char}
    {s : Scan} (h : Scans classes place cs s) (hcs : text.toList.drop place = cs)
    (hplace : place ≤ text.length) : ∃ pieces : List Token, pieces.length ≤ cs.length ∧
      ((s = ⟨pieces ++ [endToken text.length], .complete⟩ ∧
          Tiles classes text place (pieces.filter (!·.cls.isBlank)) text.length) ∨
        ∃ (a : Char) (p : Nat), s = ⟨pieces, .failed (.unrecognized a p)⟩ ∧
          text.toList[p]? = some a ∧
          Tiles classes text place (pieces.filter (!·.cls.isBlank)) p ∧
          ∀ c ∈ classes, c.matchAt text p = .ok none) := by
  have hlist : text.toList.length = text.length := String.length_toList
  induction h with
  | finished place =>
    have hlength := congrArg List.length hcs
    rw [List.length_drop, List.length_nil] at hlength
    obtain rfl : place = text.length := by omega
    exact ⟨[], Nat.le_refl 0, .inl ⟨rfl, .last (.none _)⟩⟩
  | @piece place n cs c s hmatch hpos hlen hs ih =>
    have hlength := congrArg List.length hcs
    rw [List.length_drop] at hlength
    have hrest : text.toList.drop (place + n) = cs.drop n := by rw [← hcs, List.drop_drop]
    obtain ⟨pieces, hcount, hend⟩ := ih hrest (by omega)
    obtain ⟨hfound, before, after, hclasses, -⟩ := exists_of_firstMatch hmatch
    have hcls : c ∈ classes := by simp [hclasses]
    have hcovers : c.Covers text place (place + n) := by
      rw [← hcs] at hfound
      exact TokenClass.covers_of_lexeme? hfound hpos (by omega)
    have hvalue : String.ofList (cs.take n) = part text place (place + n) := by
      have hslice := slice_eq_take_drop text.toList (Nat.le_add_right place n) (by omega)
      rw [Nat.add_sub_cancel_left, hcs, Int.natCast_add] at hslice
      rw [part, hslice]
    refine ⟨pieceAt c place cs n :: pieces, ?_, ?_⟩
    · rw [List.length_drop] at hcount
      rw [List.length_cons]
      omega
    rw [Int.natCast_add] at hend
    rcases hend with ⟨rfl, htiles⟩ | ⟨a, p, rfl, hchar, htiles, hnone⟩
    · exact .inl ⟨rfl, Tiles.cons (t := pieceAt c place cs n) hcls hcovers hvalue htiles⟩
    · exact .inr ⟨a, p, rfl, hchar,
        Tiles.cons (t := pieceAt c place cs n) hcls hcovers hvalue htiles, hnone⟩
  | @stuck place a cs hmatch =>
    refine ⟨[], Nat.zero_le _, .inr ⟨a, place, rfl, ?_, .last (.none _), fun c hc => ?_⟩⟩
    · rw [← List.head?_drop, hcs, List.head?_cons]
    · rw [c.matchAt_of_le hplace, hcs, firstMatch_eq_none.mp hmatch c hc]
      rfl

/-- The tokens of a text tile it up to its end, or up to a character where no class has a token. -/
theorem Scans.tokens_tile {classes : List TokenClass} {text : String} {s : Scan}
    (h : Scans classes 0 text.toList s) :
    (s.ending = .complete ∧ ∃ ts, s.tokens = ts ++ [endToken text.length] ∧
      Tiles classes text 0 ts text.length) ∨
    ∃ (a : Char) (p : Nat), s.ending = .failed (.unrecognized a p) ∧ text.toList[p]? = some a ∧
      Tiles classes text 0 s.tokens p ∧ ∀ c ∈ classes, c.matchAt text p = .ok none := by
  obtain ⟨pieces, -, ⟨rfl, htiles⟩ | ⟨a, p, rfl, hchar, htiles, hnone⟩⟩ :=
    h.tiles rfl (Nat.zero_le _)
  · refine .inl ⟨rfl, _, ?_, htiles⟩
    rw [Scan.tokens, List.filter_append]
    rfl
  · exact .inr ⟨a, p, rfl, hchar, htiles, hnone⟩

/-! ## Languages of any classes -/

theorem Blanks.mono {classes more : List TokenClass} {text : String} {place stop : Int}
    (hsub : ∀ c ∈ classes, c ∈ more) (h : Blanks classes text place stop) :
    Blanks more text place stop := by
  induction h with
  | none place => exact .none place
  | blank hc hblank hcovers hrest ih => exact .blank (hsub _ hc) hblank hcovers ih

theorem Tiles.mono {classes more : List TokenClass} {text : String} {ts : List Token}
    {place stop : Int} (hsub : ∀ c ∈ classes, c ∈ more) (h : Tiles classes text place ts stop) :
    Tiles more text place ts stop := by
  induction h with
  | last hgap => exact .last (hgap.mono hsub)
  | token hgap hcls hblank hcovers hvalue hrest ih =>
    exact .token (hgap.mono hsub) (hsub _ hcls) hblank hcovers hvalue ih

/-- **A scan tiles its text, in any language.** Over solid classes a lexer finds at most as many
pieces as the text has characters, and comes to an end. The tokens among the pieces are parts of the
text, not empty and one behind the other, and blanks alone fill the gaps. Either this goes on to the
end of the text, and one closing token is added; or it stops at a character where no class has a
token. -/
theorem scan_tiles {classes : List TokenClass} (hsolid : ∀ c ∈ classes, c.pattern.Solid)
    {lexer : Lexer} (hlexer : Lexer.ofCandidates (classes.map .tokenClass) = .ok lexer)
    (text : String) : ∃ pieces tokens : List Token,
      pieces.length ≤ text.length ∧ tokens = pieces.filter (!·.cls.isBlank) ∧
      (tokens.Pairwise fun t u => t.stop ≤ u.start) ∧
      (∀ t ∈ tokens, t.start < t.stop ∧ t.value = part text t.start t.stop) ∧
      (((lexer.scan text).lexemes = pieces ++ [endToken text.length] ∧
          (lexer.scan text).ending = .complete ∧
          (lexer.scan text).tokens = tokens ++ [endToken text.length] ∧
          (∀ t ∈ tokens, t.cls ≠ .endOfInput) ∧ Tiles classes text 0 tokens text.length) ∨
        ∃ (a : Char) (p : Nat), (lexer.scan text).lexemes = pieces ∧
          (lexer.scan text).ending = .failed (.unrecognized a p) ∧
          (lexer.scan text).tokens = tokens ∧ text.toList[p]? = some a ∧
          Tiles classes text 0 tokens p ∧ ∀ c ∈ classes, c.matchAt text p = .ok none) := by
  rw [(Lexer.ofCandidates_eq_ok_iff.mp hlexer).2]
  have hmem : ∀ c ∈ (Lexer.ofClasses classes).classes, c ∈ classes :=
    fun c hc => Lexer.mem_ofClasses.mp hc
  have hscans : Scans (Lexer.ofClasses classes).classes 0 text.toList
      ((Lexer.ofClasses classes).scan text) :=
    scans_scanFrom (fun c hc => hsolid c (hmem c hc)) 0 text.toList
  obtain ⟨pieces, hcount, hend⟩ := hscans.tiles rfl (Nat.zero_le _)
  rw [String.length_toList] at hcount
  refine ⟨pieces, _, hcount, rfl, ?_⟩
  rcases hend with ⟨hscan, htiles⟩ | ⟨a, p, hscan, hchar, htiles, hnone⟩
  · have htiles := htiles.mono hmem
    refine ⟨htiles.pairwise, fun t ht => ?_, .inl ⟨?_, ?_, ?_, fun t ht => ?_, htiles⟩⟩
    · obtain ⟨-, hlt, -, hvalue⟩ := htiles.spans t ht
      exact ⟨hlt, hvalue⟩
    · rw [hscan]
    · rw [hscan]
    · rw [Scan.tokens, hscan, List.filter_append]
      rfl
    · -- the closing class has no pattern, so it is not among the solid ones
      intro heq
      have hclosing := hsolid _ (htiles.cls_mem t ht).1
      rw [heq] at hclosing
      exact hclosing
  · have htiles := htiles.mono hmem
    refine ⟨htiles.pairwise, fun t ht => ?_, .inr ⟨a, p, ?_, ?_, ?_, hchar, htiles, fun c hc => ?_⟩⟩
    · obtain ⟨-, hlt, -, hvalue⟩ := htiles.spans t ht
      exact ⟨hlt, hvalue⟩
    · rw [hscan]
    · rw [hscan]
    · rw [Scan.tokens, hscan]
    · exact hnone c (Lexer.mem_ofClasses.mpr hc)

/-- Dashes that are spelled inside one another, and dots that are blank. The scan of a text with a
question mark ends there. -/
theorem scan_tiles_dashes :
    let classes : List TokenClass := [{ name := "Dots", family := .blank, text := some ".." },
      .variableName, .ofKind "Dash" .and ["-", "->-", "->"]]
    (∀ c ∈ classes, c.pattern.Solid) ∧
    ∃ lexer, Lexer.ofCandidates (classes.map .tokenClass) = .ok lexer ∧
      (∃ tokens, (lexer.scan "p->-..->q").tokens = tokens ++ [endToken 9] ∧
        Tiles classes "p->-..->q" 0 tokens 9) ∧
      ∃ tokens, (lexer.scan "-..?").tokens = tokens ∧ Tiles classes "-..?" 0 tokens 3 := by
  intro classes
  have hsolid : ∀ c ∈ classes, c.pattern.Solid := by
    simp only [classes, List.forall_mem_cons]
    exact ⟨(by decide : ".." ≠ ""), trivial, ⟨by decide, by decide⟩, List.forall_mem_nil _⟩
  have hbound : ∀ c ∈ classes, c.role ≠ .unbound := by
    simp only [classes, List.forall_mem_cons]
    exact ⟨nofun, nofun, nofun, List.forall_mem_nil _⟩
  have hlexer := Lexer.ofCandidates_eq_ok_iff.mpr ⟨hbound, rfl⟩
  refine ⟨hsolid, _, hlexer, ?_, ?_⟩
  · obtain ⟨_, tokens, -, -, -, -, ⟨-, -, htokens, -, htiles⟩ | ⟨a, p, -, hend, -⟩⟩ :=
      scan_tiles hsolid hlexer "p->-..->q"
    · exact ⟨tokens, htokens, htiles⟩
    · have hcomplete : ((Lexer.ofClasses classes).scan "p->-..->q").ending = .complete := by decide
      rw [hcomplete] at hend
      cases hend
  · obtain ⟨_, tokens, -, -, -, -, ⟨-, hend, -⟩ | ⟨a, p, -, hend, htokens, -, htiles, -⟩⟩ :=
      scan_tiles hsolid hlexer "-..?"
    · have hfailed : ((Lexer.ofClasses classes).scan "-..?").ending =
          .failed (.unrecognized '?' 3) := by decide
      rw [hfailed] at hend
      cases hend
    · have hfailed : ((Lexer.ofClasses classes).scan "-..?").ending =
          .failed (.unrecognized '?' 3) := by decide
      rw [hfailed] at hend
      cases hend
      exact ⟨tokens, htokens, htiles⟩

end Propositional
