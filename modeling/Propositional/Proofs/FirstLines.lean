import Propositional.Proofs.Decoding

/-!
# The first line of a stream

A stream is read chunk by chunk, until the end of its first line comes into sight. So the line is
settled by the first chunks alone: they have to encode a text, whatever the others do.

* `FirstLineOf` — the first line of a text, of which more may come.
* `IsFirstLine` — the first line of a stream, by what its chunks encode.
* `firstLine_eq_ok_iff` — reading finds it, if there is one.
* `isFirstLine_of_encode`, `firstLine_chunksOf` — the line of a stream that encodes a text, in
  whatever chunks it comes, and that of a file.
-/

namespace Propositional

/-! ## Lines of a text -/

/-- The line is the first one of the text: behind it comes a line feed, or a carriage return with
something behind it, or, if the text is complete, nothing or a carriage return alone. -/
structure FirstLineOf (line text : List Char) (complete : Prop) : Prop where
  single : '\n' ∉ line ∧ '\r' ∉ line
  ends : (∃ rest, text = line ++ '\n' :: rest) ∨ (∃ c rest, text = line ++ '\r' :: c :: rest) ∨
    complete ∧ (text = line ∨ text = line ++ ['\r'])

section

variable {line text more : List Char} {p q : Prop}

theorem isLineEnd_iff {c : Char} : isLineEnd c = true ↔ c = '\n' ∨ c = '\r' := by
  simp [isLineEnd]

theorem takeWhile_append_single (h : '\n' ∉ line ∧ '\r' ∉ line) (more : List Char) :
    (line ++ more).takeWhile (!isLineEnd ·) = line ++ more.takeWhile (!isLineEnd ·) := by
  apply List.takeWhile_append_of_pos
  intro a ha
  rw [Bool.not_eq_true', ← Bool.not_eq_true, isLineEnd_iff]
  rintro (rfl | rfl)
  · exact h.1 ha
  · exact h.2 ha

/-- The first line is what stands in front of the first character that ends a line. -/
theorem FirstLineOf.eq_takeWhile (h : FirstLineOf line text p) :
    line = text.takeWhile (!isLineEnd ·) := by
  obtain ⟨rest, rfl⟩ | ⟨c, rest, rfl⟩ | ⟨-, rfl | rfl⟩ := h.ends
  · rw [takeWhile_append_single h.single, List.takeWhile_cons_of_neg (by decide), List.append_nil]
  · rw [takeWhile_append_single h.single, List.takeWhile_cons_of_neg (by decide), List.append_nil]
  · have hall := takeWhile_append_single h.single []
    rwa [List.append_nil, List.takeWhile_nil, List.append_nil, eq_comm] at hall
  · rw [takeWhile_append_single h.single, List.takeWhile_cons_of_neg (by decide), List.append_nil]

theorem FirstLineOf.imp (h : FirstLineOf line text p) (hpq : p → q) : FirstLineOf line text q :=
  ⟨h.single, h.ends.imp_right (Or.imp_right (And.imp_left hpq))⟩

/-- A line whose end is in sight stays the first one, whatever follows. -/
theorem FirstLineOf.append (h : FirstLineOf line text False) (more : List Char) (p : Prop) :
    FirstLineOf line (text ++ more) p where
  single := h.single
  ends := by
    obtain ⟨rest, rfl⟩ | ⟨c, rest, rfl⟩ | ⟨hfalse, -⟩ := h.ends
    · exact .inl ⟨rest ++ more, by rw [List.append_assoc, List.cons_append]⟩
    · exact .inr (.inl ⟨c, rest ++ more, by simp only [List.append_assoc, List.cons_append]⟩)
    · exact hfalse.elim

theorem FirstLineOf.cons {c : Char} (h : FirstLineOf line text p) (hfeed : c ≠ '\n')
    (hreturn : c ≠ '\r') : FirstLineOf (c :: line) (c :: text) p where
  single := ⟨List.not_mem_cons_of_ne_of_not_mem hfeed.symm h.single.1,
    List.not_mem_cons_of_ne_of_not_mem hreturn.symm h.single.2⟩
  ends := by
    obtain ⟨rest, rfl⟩ | ⟨d, rest, rfl⟩ | ⟨hp, rfl | rfl⟩ := h.ends
    · exact .inl ⟨rest, rfl⟩
    · exact .inr (.inl ⟨d, rest, rfl⟩)
    · exact .inr (.inr ⟨hp, .inl rfl⟩)
    · exact .inr (.inr ⟨hp, .inr rfl⟩)

theorem firstLineOf_of_endedLine? : ∀ {text line : List Char}, endedLine? text = some line →
    FirstLineOf line text False := by
  intro text
  fun_induction endedLine? text with
  | case1 => exact nofun
  | case2 => exact nofun
  | case3 c rest hopen hend =>
    intro line h
    cases h
    refine ⟨by simp, ?_⟩
    obtain rfl | rfl := isLineEnd_iff.mp hend
    · exact .inl ⟨rest, rfl⟩
    · cases rest with
      | nil => exact absurd rfl (hopen rfl)
      | cons d rest => exact .inr (.inl ⟨d, rest, rfl⟩)
  | case4 c rest hopen hend ih =>
    intro line h
    obtain ⟨behind, hbehind, rfl⟩ := Option.map_eq_some_iff.mp h
    rw [isLineEnd_iff, not_or] at hend
    exact (ih hbehind).cons hend.1 hend.2

/-- If no line end is in sight, the text is one line, or could go on with a line feed. -/
theorem exists_of_endedLine?_eq_none : ∀ {text : List Char}, endedLine? text = none →
    ∃ line, ('\n' ∉ line ∧ '\r' ∉ line) ∧ (text = line ∨ text = line ++ ['\r']) := by
  intro text
  fun_induction endedLine? text with
  | case1 => exact fun _ => ⟨[], by simp, .inl rfl⟩
  | case2 => exact fun _ => ⟨[], by simp, .inr rfl⟩
  | case3 => exact nofun
  | case4 c rest hopen hend ih =>
    intro h
    rw [isLineEnd_iff, not_or] at hend
    obtain ⟨line, ⟨hfeed, hreturn⟩, hline⟩ := ih (Option.map_eq_none_iff.mp h)
    refine ⟨c :: line, ⟨?_, ?_⟩, ?_⟩
    · exact List.not_mem_cons_of_ne_of_not_mem (Ne.symm hend.1) hfeed
    · exact List.not_mem_cons_of_ne_of_not_mem (Ne.symm hend.2) hreturn
    · obtain rfl | rfl := hline
      · exact .inl rfl
      · exact .inr rfl

theorem not_firstLineOf_of_endedLine? (h : endedLine? text = none) :
    ¬ FirstLineOf line text False := by
  intro hline
  obtain ⟨line', hsingle, htext⟩ := exists_of_endedLine?_eq_none h
  have hsame : line = line' := by
    have hwhole : FirstLineOf line' text True := ⟨hsingle, .inr (.inr ⟨trivial, htext⟩)⟩
    rw [hline.eq_takeWhile, hwhole.eq_takeWhile]
  subst hsame
  obtain ⟨rest, hrest⟩ | ⟨c, rest, hrest⟩ | ⟨hfalse, -⟩ := hline.ends
  · obtain rfl | rfl := htext <;> simp at hrest
  · obtain rfl | rfl := htext <;> simp at hrest
  · exact hfalse

/-- A complete text has a first line. -/
theorem firstLineOf_takeWhile (text : List Char) :
    FirstLineOf (text.takeWhile (!isLineEnd ·)) text True := by
  cases hended : endedLine? text with
  | some line =>
    have hsight := firstLineOf_of_endedLine? hended
    rw [← hsight.eq_takeWhile]
    exact hsight.imp False.elim
  | none =>
    obtain ⟨line, hsingle, htext⟩ := exists_of_endedLine?_eq_none hended
    have hwhole : FirstLineOf line text True := ⟨hsingle, .inr (.inr ⟨trivial, htext⟩)⟩
    rwa [← hwhole.eq_takeWhile]

end

/-! ## Bytes that are cut off -/

theorem Begun.of_append {p q : List UInt8} (h : Begun (p ++ q)) : Begun p := by
  generalize hbytes : p ++ q = bytes at h
  cases h with
  | @character c _ more hmore h =>
    subst hbytes
    rw [List.append_assoc] at h
    exact .character (List.append_ne_nil_of_right_ne_nil q hmore) h
  | @surrogate b hlow hhigh =>
    obtain _ | ⟨a, _ | ⟨d, p⟩⟩ := p
    · exact begun_nil
    · cases hbytes
      -- the first byte alone begins a character as well
      exact @Begun.character '\ud000' [0xed] [0x80, 0x80] (by simp) rfl
    · obtain ⟨rfl, rfl, hnil⟩ : a = 0xed ∧ d = b ∧ p ++ q = [] := by simpa using hbytes
      obtain ⟨rfl, -⟩ := List.append_eq_nil_iff.mp hnil
      exact .surrogate hlow hhigh

/-- The first of some bytes that encode a text encode its beginning, and begin one character more. -/
theorem exists_of_encode_eq_append {tail p q : List UInt8} (htail : Begun tail) :
    ∀ {text : List Char}, encodeUtf8 text ++ tail = p ++ q →
      ∃ front behind begun, text = front ++ behind ∧ p = encodeUtf8 front ++ begun ∧
        Begun begun ∧ begun ++ q = encodeUtf8 behind ++ tail
  | [], h => by
    have hp : Begun p := by
      apply Begun.of_append (q := q)
      rwa [← h]
    exact ⟨[], [], p, rfl, rfl, hp, h.symm⟩
  | c :: text, h => by
    have hbytes := h
    rw [encodeUtf8_cons, List.append_assoc, List.append_eq_append_iff] at h
    obtain ⟨as, rfl, has⟩ | ⟨bs, hbs, hq⟩ := h
    · obtain ⟨front, behind, begun, rfl, rfl, hbegun, hmore⟩ := exists_of_encode_eq_append htail has
      refine ⟨c :: front, behind, begun, rfl, ?_, hbegun, hmore⟩
      rw [encodeUtf8_cons, List.append_assoc]
    · cases bs with
      | nil =>
        refine ⟨[c], text, [], rfl, ?_, begun_nil, hq⟩
        rw [encodeUtf8_cons, hbs]
        simp [encodeUtf8]
      | cons b bs =>
        exact ⟨[], c :: text, p, rfl, rfl, .character (List.cons_ne_nil b bs) hbs, hbytes.symm⟩

/-- Bytes encode at most one text. -/
theorem encode_inj {text text' : List Char} {tail tail' : List UInt8} (htail : Begun tail)
    (htail' : Begun tail') (h : encodeUtf8 text ++ tail = encodeUtf8 text' ++ tail') :
    text = text' ∧ tail = tail' := by
  have hleft : decodeUtf8 (encodeUtf8 text ++ tail) = .ok (text, tail) :=
    decodeUtf8_eq_ok_iff.mpr ⟨rfl, htail⟩
  have hright := decodeUtf8_eq_ok_iff.mpr ⟨h, htail'⟩
  rw [hleft, Except.ok.injEq, Prod.mk.injEq] at hright
  exact hright

/-! ## Streams -/

/-- The first line of a stream: the first of its chunks, or all of them, encode the beginning of a
text, and this is enough to know its first line. -/
inductive IsFirstLine (chunks : List Chunk) (line : List Char) : Prop where
  | intro (seen unseen : List Chunk) (text : List Char) (tail : List UInt8)
    (hchunks : chunks = seen ++ unseen) (hbytes : chunkBytes seen = encodeUtf8 text ++ tail)
    (htail : Begun tail) (hline : FirstLineOf line text (unseen = [] ∧ tail = []))

theorem IsFirstLine.single {chunks : List Chunk} {line : List Char} (h : IsFirstLine chunks line) :
    '\n' ∉ line ∧ '\r' ∉ line := by
  obtain ⟨_, _, _, _, _, _, _, hline⟩ := h
  exact hline.single

theorem chunkBytes_append (chunks more : List Chunk) :
    chunkBytes (chunks ++ more) = chunkBytes chunks ++ chunkBytes more := List.flatMap_append

/-- A stream that encodes a text has the first line of the text, in whatever chunks it comes. -/
theorem isFirstLine_of_encode {chunks : List Chunk} {text : List Char}
    (h : chunkBytes chunks = encodeUtf8 text) :
    IsFirstLine chunks (text.takeWhile (!isLineEnd ·)) := by
  have hbytes : chunkBytes chunks = encodeUtf8 text ++ [] := by rw [h, List.append_nil]
  have hline : FirstLineOf (text.takeWhile (!isLineEnd ·)) text
      (([] : List Chunk) = [] ∧ ([] : List UInt8) = []) :=
    (firstLineOf_takeWhile text).imp fun _ => ⟨rfl, rfl⟩
  exact .intro chunks [] text [] (List.append_nil _).symm hbytes begun_nil hline

/-- One more chunk is decoded behind what has been. -/
theorem chunkBytes_snoc {done : List Chunk} {chunk : Chunk} {soFar chars : List Char}
    {begun begun' : List UInt8} (hdone : chunkBytes done = encodeUtf8 soFar ++ begun)
    (hchunk : begun ++ chunk.bytes = encodeUtf8 chars ++ begun') :
    chunkBytes (done ++ [chunk]) = encodeUtf8 (soFar ++ chars) ++ begun' := by
  have hsingle : chunkBytes [chunk] = chunk.bytes := List.flatMap_singleton _ _
  rw [chunkBytes_append, hsingle, hdone, List.append_assoc, hchunk, encodeUtf8_append,
    List.append_assoc]

section

variable {done rest : List Chunk} {chunk : Chunk} {soFar line : List Char} {begun : List UInt8}
  (hdone : chunkBytes done = encodeUtf8 soFar ++ begun) (hbegun : Begun begun)
  (hopen : endedLine? soFar = none)
include hdone hbegun hopen

/-- Chunks that have been read without a line end in sight are among those that settle the line. -/
theorem IsFirstLine.exists_of_open (h : IsFirstLine (done ++ rest) line) :
    ∃ more unseen text tail, rest = more ++ unseen ∧
      chunkBytes done ++ chunkBytes more = encodeUtf8 text ++ tail ∧ Begun tail ∧
        FirstLineOf line text (unseen = [] ∧ tail = []) := by
  obtain ⟨seen, unseen, text, tail, hchunks, hbytes, htail, hline⟩ := h
  rw [List.append_eq_append_iff] at hchunks
  obtain ⟨more, rfl, rfl⟩ | ⟨_ | ⟨chunk, others⟩, rfl, rfl⟩ := hchunks
  · exact ⟨more, unseen, text, tail, rfl, by rw [← chunkBytes_append, hbytes], htail, hline⟩
  · refine ⟨[], _, text, tail, rfl, ?_, htail, hline⟩
    rw [← chunkBytes_append, List.append_nil, List.append_nil, hbytes]
  · -- fewer chunks would show the end of the line, and so would all that have been read
    have hshort := hdone.symm
    rw [chunkBytes_append] at hshort
    obtain ⟨front, behind, begun', rfl, hfront, hbegun', -⟩ :=
      exists_of_encode_eq_append hbegun hshort
    obtain ⟨rfl, -⟩ := encode_inj htail hbegun' (hbytes.symm.trans hfront)
    have hsight : FirstLineOf line text False := hline.imp fun h => List.cons_ne_nil _ _ h.1
    exact absurd (hsight.append behind False) (not_firstLineOf_of_endedLine? hopen)

/-- If the stream ends without a line end in sight, it ends with a whole character. -/
theorem IsFirstLine.eq_of_open (h : IsFirstLine done line) :
    begun = [] ∧ line = soFar.takeWhile (!isLineEnd ·) := by
  rw [← List.append_nil done] at h
  obtain ⟨more, unseen, text, tail, hrest, hbytes, htail, hline⟩ :=
    h.exists_of_open hdone hbegun hopen
  obtain ⟨rfl, rfl⟩ := List.append_eq_nil_iff.mp hrest.symm
  obtain ⟨rfl, rfl⟩ := encode_inj hbegun htail (hdone.symm.trans (List.append_nil _ ▸ hbytes))
  refine ⟨?_, hline.eq_takeWhile⟩
  by_cases hwhole : begun = []
  · exact hwhole
  · exact absurd (hline.imp fun h => hwhole h.2) (not_firstLineOf_of_endedLine? hopen)

/-- If there is one more chunk, it is decoded, and a line end that it brings into sight is that of
the line. -/
theorem IsFirstLine.exists_of_cons (h : IsFirstLine (done ++ chunk :: rest) line) :
    ∃ chars begun', begun ++ chunk.bytes = encodeUtf8 chars ++ begun' ∧ Begun begun' ∧
      ∀ line', endedLine? (soFar ++ chars) = some line' → line' = line := by
  obtain ⟨more, unseen, text, tail, hrest, hbytes, htail, hline⟩ :=
    h.exists_of_open hdone hbegun hopen
  cases more with
  | nil =>
    obtain ⟨rfl, rfl⟩ := encode_inj hbegun htail (hdone.symm.trans (List.append_nil _ ▸ hbytes))
    have hmore : unseen ≠ [] := by
      rintro rfl
      cases hrest
    exact absurd (hline.imp fun h => hmore h.1) (not_firstLineOf_of_endedLine? hopen)
  | cons first more =>
    obtain ⟨rfl, -⟩ := List.cons.inj hrest
    have hfirst : chunkBytes (chunk :: more) = chunk.bytes ++ chunkBytes more := List.flatMap_cons
    rw [hfirst, ← List.append_assoc, eq_comm] at hbytes
    obtain ⟨front, behind, begun', rfl, hfront, hbegun', -⟩ := exists_of_encode_eq_append htail hbytes
    obtain ⟨front', chars, begun'', rfl, hdone', hbegun'', hchars⟩ :=
      exists_of_encode_eq_append hbegun' hfront.symm
    obtain ⟨rfl, rfl⟩ := encode_inj hbegun hbegun'' (hdone.symm.trans hdone')
    refine ⟨chars, begun', hchars, hbegun', fun line' hline' => ?_⟩
    have hsame := (firstLineOf_of_endedLine? hline').append behind True
    rw [hsame.eq_takeWhile, ← hline.eq_takeWhile]

end

/-- **Reading on finds the first line**, if there is one. By induction on the chunks that are left;
the ones before them encode what has been decoded, and no line end has come into sight. -/
theorem firstLineFrom_eq_ok_iff : ∀ {rest done : List Chunk} {soFar line : List Char}
    {begun : List UInt8}, chunkBytes done = encodeUtf8 soFar ++ begun → Begun begun →
      endedLine? soFar = none →
        (firstLineFrom soFar begun rest = .ok line ↔ IsFirstLine (done ++ rest) line)
  | [], done, soFar, line, begun, hdone, hbegun, hopen => by
    rw [firstLineFrom, List.append_nil]
    constructor
    · intro h
      split at h
      · rename_i hnone
        obtain rfl := List.isEmpty_iff.mp hnone
        cases h
        exact isFirstLine_of_encode (hdone.trans (List.append_nil _))
      · cases h
    · intro h
      obtain ⟨rfl, rfl⟩ := h.eq_of_open hdone hbegun hopen
      rfl
  | chunk :: rest, done, soFar, line, begun, hdone, hbegun, hopen => by
    rw [firstLineFrom]
    cases hdecoded : decodeUtf8 (begun ++ chunk.bytes) with
    | error e =>
      refine iff_of_false nofun fun h => ?_
      obtain ⟨chars, begun', hchars, hbegun', -⟩ := h.exists_of_cons hdone hbegun hopen
      rw [decodeUtf8_eq_ok_iff.mpr ⟨hchars, hbegun'⟩] at hdecoded
      cases hdecoded
    | ok found =>
      obtain ⟨chars, begun'⟩ := found
      obtain ⟨hchars, hbegun'⟩ := decodeUtf8_eq_ok_iff.mp hdecoded
      have hdone' := chunkBytes_snoc hdone hchars
      cases hended : endedLine? (soFar ++ chars) with
      | some line' =>
        simp only [bind, Except.bind, hended]
        constructor
        · intro h
          cases h
          have hsight : FirstLineOf line (soFar ++ chars) (rest = [] ∧ begun' = []) :=
            (firstLineOf_of_endedLine? hended).imp False.elim
          exact .intro _ rest _ begun' (List.append_cons done chunk rest) hdone' hbegun' hsight
        · intro h
          obtain ⟨chars', begun'', hchars', hbegun'', hline⟩ := h.exists_of_cons hdone hbegun hopen
          obtain ⟨rfl, rfl⟩ := encode_inj hbegun' hbegun'' (hchars.symm.trans hchars')
          rw [hline _ hended]
          rfl
      | none =>
        simp only [bind, Except.bind, hended]
        rw [List.append_cons]
        exact firstLineFrom_eq_ok_iff hdone' hbegun' hended

/-- **Reading finds the first line of a stream**, and fails if there is none. -/
theorem firstLine_eq_ok_iff {chunks : List Chunk} {line : String} :
    firstLine chunks = .ok line ↔ IsFirstLine chunks line.toList := by
  have hnone : chunkBytes [] = encodeUtf8 [] ++ [] := rfl
  have hiff : ∀ cs : List Char, firstLineFrom [] [] chunks = .ok cs ↔ IsFirstLine chunks cs :=
    fun _ => firstLineFrom_eq_ok_iff hnone begun_nil rfl
  rw [← hiff, firstLine]
  cases firstLineFrom [] [] chunks with
  | error e => exact iff_of_false nofun nofun
  | ok cs =>
    show Except.ok (String.ofList cs) = _ ↔ _
    rw [Except.ok.injEq, Except.ok.injEq]
    constructor
    · rintro rfl
      exact String.toList_ofList.symm
    · rintro rfl
      exact String.ofList_toList

/-- The chunks of a file make up its bytes. -/
theorem chunkBytes_chunksOf (bytes : List UInt8) : chunkBytes (chunksOf bytes) = bytes := by
  fun_induction chunksOf bytes with
  | case1 => rfl
  | case2 b rest ih =>
    rw [chunkBytes, List.flatMap_cons, ← chunkBytes, ih, Chunk.bytes, List.cons_append,
      List.take_append_drop]

/-- **A file that holds a text** is read up to the end of the first line of the text. -/
theorem firstLine_chunksOf (text : List Char) :
    firstLine (chunksOf (encodeUtf8 text)) = .ok (String.ofList (text.takeWhile (!isLineEnd ·))) := by
  rw [firstLine_eq_ok_iff, String.toList_ofList]
  exact isFirstLine_of_encode (chunkBytes_chunksOf _)

end Propositional
