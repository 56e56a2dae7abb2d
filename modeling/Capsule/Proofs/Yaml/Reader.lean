import Capsule.Json.Printer
import Capsule.Yaml.Token

/-!
# Reading YAML in brackets

A collection in brackets needs no line breaks, and where there are none the reader of YAML has no
blocks to keep track of. This file says what the reader does then, token by token: at brackets and
commas, at a scalar between double quotes, at a word, and at a key with its colon.

## Where the reader stands

A reader holds more than reading goes by in brackets: the position, and the places where keys may
have begun. `Reader.Stands` says what matters of it, and a token is a step from where the reader
stands to where it stands next, `Reader.Reaches`. Whoever puts the steps together need not open the
reader.

To forget where a key may have begun is an error only if a key is required there, and outside all
blocks none is. But one place must not be forgotten: that of a key until its colon has come. So a
key has to be shorter than the reader remembers.

## Left out

Characters beyond printable ASCII: some of them are not allowed at all, and some are line breaks.

## Main definitions

* `Reader.Stands`, `Reader.Reaches`: where a reader stands, and where it gets to

## Main results

* `doubleQuoted_escaped`: a string is read up to its closing quotation mark
* `Reader.Stands.key`: a key is told by the colon behind it
-/

namespace Capsule

open Json (escapeChar stringChars)

/-- A list is read if each of its items is. -/
theorem List.mapM_eq_some_map {α β : Type} {f : α → Option β} {g : α → β} {xs : List α}
    (h : ∀ x ∈ xs, f x = some (g x)) : xs.mapM f = some (xs.map g) := by
  induction xs with
  | nil => rfl
  | cons x xs ih =>
    rw [List.forall_mem_cons] at h
    rw [List.mapM_cons, h.1, ih h.2]
    rfl

namespace Yaml

/-! ### Printable characters -/

/-- A character of printable ASCII. -/
def IsPrintable (c : Char) : Prop := ' ' ≤ c ∧ c ≤ '~'

instance (c : Char) : Decidable (IsPrintable c) := inferInstanceAs (Decidable (_ ∧ _))

theorem IsPrintable.toNat {c : Char} (h : IsPrintable c) : 0x20 ≤ c.toNat ∧ c.toNat ≤ 0x7E :=
  ⟨UInt32.le_iff_toNat_le.mp h.1, UInt32.le_iff_toNat_le.mp h.2⟩

theorem IsPrintable.isBreak {c : Char} (h : IsPrintable c) : isBreak c = false := by
  have hc := h.toNat
  have hne : ∀ d : Char, d.toNat < 0x20 ∨ 0x7E < d.toNat → (c == d) = false := by
    rintro d hd
    refine beq_false_of_ne ?_
    rintro rfl
    omega
  simp only [Yaml.isBreak, Bool.or_eq_false_iff]
  exact ⟨⟨⟨⟨hne _ (by decide), hne _ (by decide)⟩, hne _ (by decide)⟩, hne _ (by decide)⟩,
    hne _ (by decide)⟩

theorem IsPrintable.isAllowed {c : Char} (h : IsPrintable c) : isAllowed c = true := by
  have hc := h.toNat
  simp [Yaml.isAllowed, hc.1, hc.2]

/-- Of the printable characters only two are escaped. -/
theorem escapeChar_of_isPrintable {c : Char} (h : IsPrintable c) :
    escapeChar c = if c = '"' ∨ c = '\\' then ['\\', c] else [c] := by
  have hc := h.toNat
  unfold escapeChar
  split
  case h_1 => rfl
  case h_2 => rfl
  case h_8 =>
    rw [if_neg (by omega), if_neg]
    rintro (rfl | rfl) <;> contradiction
  all_goals exact absurd hc (by decide)

/-! ### Quoted scalars -/

theorem atSeparator_eq_false {m : Mark} (hm : m.column ≠ 0) (cs : List Char) :
    atSeparator m cs = false := by
  simp [atSeparator, hm]

theorem atSeparator_cons_eq_false {c : Char} (hyphen : c ≠ '-') (dot : c ≠ '.') (m : Mark)
    (cs : List Char) : atSeparator m (c :: cs) = false := by
  simp [atSeparator, hyphen, dot]

theorem Gap.text_of_not_broken {gap : Gap} (h : gap.broken = false) : gap.text = gap.blanks := by
  simp [Gap.text, h]

section

variable {m : Mark} {gap : Gap} {c : Char}

theorem doubleQuoted_quote (hm : m.column ≠ 0) (hgap : gap.broken = false) (acc cs : List Char) :
    doubleQuoted m acc gap ('"' :: cs) = some ⟨acc.reverse ++ gap.blanks, m.next, cs⟩ := by
  simp [doubleQuoted, isBlank, isBreak, atSeparator_eq_false hm, Gap.text_of_not_broken hgap]

theorem doubleQuoted_escape (hgap : gap.broken = false) (hc : c = '"' ∨ c = '\\')
    (acc cs : List Char) :
    doubleQuoted m acc gap ('\\' :: c :: cs) =
      doubleQuoted (m.advance 2) (c :: (gap.blanks.reverse ++ acc)) {} cs := by
  rcases hc with rfl | rfl <;>
    simp [doubleQuoted, isBreak, escapeLetter?, Gap.text_of_not_broken hgap]

theorem doubleQuoted_cons (hm : m.column ≠ 0) (hgap : gap.broken = false)
    (hbreak : isBreak c = false) (hc : ¬ (c = '"' ∨ c = '\\')) (acc cs : List Char) :
    doubleQuoted m acc gap (c :: cs) =
      if isBlank c then doubleQuoted m.next acc { gap with blanks := gap.blanks ++ [c] } cs
      else doubleQuoted m.next (c :: (gap.blanks.reverse ++ acc)) {} cs := by
  obtain ⟨hquote, hescape⟩ := not_or.mp hc
  have hreturn : c ≠ '\r' := by
    rintro rfl
    cases hbreak
  rw [doubleQuoted]
  · simp [hbreak, atSeparator_eq_false hm, hquote, Gap.text_of_not_broken hgap, Gap.addBlank, hgap]
  all_goals simp [hescape, hreturn]

end

/-- **A string is read up to its closing quotation mark.** -/
theorem doubleQuoted_escaped {s : List Char} (hs : ∀ c ∈ s, IsPrintable c) (rest : List Char)
    {m : Mark} (hm : m.column ≠ 0) (acc : List Char) {gap : Gap} (hgap : gap.broken = false) :
    doubleQuoted m acc gap (s.flatMap escapeChar ++ '"' :: rest) = some
      ⟨acc.reverse ++ gap.blanks ++ s, m.advance ((s.flatMap escapeChar).length + 1), rest⟩ := by
  induction s generalizing m acc gap with
  | nil =>
    rw [List.flatMap_nil, List.nil_append, doubleQuoted_quote hm hgap, List.append_nil]
    rfl
  | cons c s ih =>
    obtain ⟨hc, hs⟩ := List.forall_mem_cons.mp hs
    rw [List.flatMap_cons, List.append_assoc, escapeChar_of_isPrintable hc]
    split
    · rename_i h
      rw [List.cons_append, List.singleton_append, doubleQuoted_escape hgap h,
        ih hs (by simp [Mark.advance]) _ rfl]
      simp [Mark.advance]
      omega
    · rename_i h
      rw [List.singleton_append, doubleQuoted_cons hm hgap hc.isBreak h]
      split
      · rw [ih hs (by simp [Mark.next]) _ (by exact hgap)]
        simp [Mark.advance, Mark.next]
        omega
      · rw [ih hs (by simp [Mark.next]) _ rfl]
        simp [Mark.advance, Mark.next]
        omega

theorem stringChars_append (s : String) (rest : List Char) :
    stringChars s ++ rest = '"' :: (s.toList.flatMap escapeChar ++ '"' :: rest) := by
  rw [stringChars, List.append_assoc]
  rfl

/-! ### Words -/

theorem ne_of_isLower {c : Char} (hc : c.isLower = true) (d : Char) (hd : d.isLower = false) :
    c ≠ d := by
  rintro rfl
  cases hc.symm.trans hd

/-- In brackets a comma or a closing bracket stands behind a value. -/
def EndsValue : List Char → Prop
  | [] => False
  | c :: _ => c = ',' ∨ c = ']' ∨ c = '}'

/-- A word is read up to the end of the value that it is. -/
theorem plain_word {w : List Char} (hw : ∀ c ∈ w, c.isLower = true) {rest : List Char}
    (hrest : EndsValue rest) (indent : Int) (start : Bool) (m : Mark) (acc : List Char) :
    plain true indent start m acc {} (w ++ rest) =
      some (⟨acc.reverse ++ w, m.advance w.length, rest⟩, false) := by
  induction w generalizing start m acc with
  | nil =>
    cases rest with
    | nil => exact hrest.elim
    | cons c cs =>
      rcases hrest with rfl | rfl | rfl <;>
        simp [plain, isBlank, isBreak, atSeparator, isStrayColon, endsPlain, Mark.advance]
  | cons x w ih =>
    obtain ⟨hx, hw⟩ := List.forall_mem_cons.mp hw
    have hne := ne_of_isLower hx
    have hbreak : isBreak x = false := by simp (disch := decide) [isBreak, hne]
    have hsep := atSeparator_cons_eq_false (hne '-' rfl) (hne '.' rfl) m (w ++ rest)
    have hplain : plain true indent start m acc {} (x :: (w ++ rest)) =
        plain true indent false m.next (x :: acc) {} (w ++ rest) := by
      rw [plain]
      · simp (disch := decide) [isBlank, hbreak, hsep, isStrayColon, endsPlain, hne, Gap.text]
      · simp (disch := decide) [hne]
    rw [List.cons_append, hplain, ih hw]
    simp [Mark.advance, Mark.next]
    omega

/-! ### Where a reader stands -/

namespace Reader

/-- A reader stands inside so many brackets, outside all blocks, before the rest of a text of which
it has read the tokens. -/
structure Stands (r : Reader) (depth : Nat) (keyAllowed : Bool) (rest : List Char)
    (tokens : List Token) : Prop where
  length_places : r.places.length = depth + 1
  /-- Nowhere could a block only go on with a key. -/
  optional : ∀ p, some p ∈ r.places → p.required = false
  indent_eq : r.indent = -1
  outer_eq : r.outer = []
  keyAllowed_eq : r.keyAllowed = keyAllowed
  rest_eq : r.rest = rest
  tokens_eq : r.tokens.reverse = tokens

/-- Reading gets from one reader to another. Each step takes a character at least. -/
def Leads (r r' : Reader) : Prop :=
  ∃ n, n + r'.rest.length ≤ r.rest.length ∧ ∀ fuel, readAll (n + fuel) r = readAll fuel r'

theorem Leads.trans {r r' r'' : Reader} (h : r.Leads r') (h' : r'.Leads r'') : r.Leads r'' := by
  obtain ⟨n, hn, hread⟩ := h
  obtain ⟨n', hn', hread'⟩ := h'
  exact ⟨n + n', by omega, fun fuel => by rw [Nat.add_assoc, hread, hread']⟩

/-- Reading gets to where a reader stands. -/
def Reaches (r : Reader) (depth : Nat) (keyAllowed : Bool) (rest : List Char)
    (tokens : List Token) : Prop :=
  ∃ r', r.Leads r' ∧ r'.Stands depth keyAllowed rest tokens

variable {r r' : Reader} {depth depth' : Nat} {k k' : Bool} {c : Char} {cs rest rest' : List Char}
  {ts ts' : List Token}

theorem Leads.reaches (h : r.Leads r') (h' : r'.Reaches depth k rest ts) :
    r.Reaches depth k rest ts := by
  obtain ⟨r₁, hlead, hstands⟩ := h'
  exact ⟨r₁, h.trans hlead, hstands⟩

theorem Reaches.bind (h : r.Reaches depth k rest ts)
    (h' : ∀ {r' : Reader}, r'.Stands depth k rest ts → r'.Reaches depth' k' rest' ts') :
    r.Reaches depth' k' rest' ts' := by
  obtain ⟨r₁, hlead, hstands⟩ := h
  exact hlead.reaches (h' hstands)

/-- A reader that has forgotten the places that are too far back. -/
def fresh (r : Reader) : Reader :=
  { r with places := r.places.map (·.filter fun p => !isStale r.mark p) }

/-- What comes is neither passed over nor a comment. -/
def atToken : List Char → Bool
  | [] => true
  | c :: _ => !(isBreak c || isBlank c || c == '#' || c == '\uFEFF')

theorem toToken_of_atToken (hrest : atToken rest = true) (flow allowed : Bool) (m : Mark) :
    toToken flow allowed false m rest = (allowed, m, rest) := by
  cases rest with
  | nil => rfl
  | cons c cs =>
    simp only [atToken, isBlank, Bool.not_eq_true', Bool.or_eq_false_iff, beq_eq_false_iff_ne]
      at hrest
    obtain ⟨⟨⟨hbreak, hblank⟩, hcomment⟩, -⟩ := hrest
    have hreturn : c ≠ '\r' := by
      rintro rfl
      cases hbreak
    rw [toToken]
    · simp [hbreak, hblank, hcomment]
    · simp [hreturn]

theorem atToken_of_isLower (hc : c.isLower = true) (cs : List Char) : atToken (c :: cs) = true := by
  have hne := ne_of_isLower hc
  simp (disch := decide) [atToken, isBreak, isBlank, hne]

namespace Stands

theorem inFlow (h : r.Stands (depth + 1) k rest ts) : r.inFlow = true := by
  simp [Reader.inFlow, Reader.depth, h.length_places]

theorem places_eq_cons (h : r.Stands depth k rest ts) : ∃ p ps, r.places = p :: ps :=
  List.exists_cons_of_length_eq_add_one h.length_places

/-- The places do not matter. -/
theorem withPlaces (h : r.Stands depth k rest ts) {ps : List (Option KeyPlace)}
    (hlength : ps.length = depth' + 1) (hoptional : ∀ p, some p ∈ ps → p.required = false) :
    { r with places := ps }.Stands depth' k rest ts :=
  { h with length_places := hlength, optional := hoptional }

/-- A token is read, and the reader has moved on. -/
theorem emit (h : r.Stands depth k rest ts) (m : Mark) (k' : Bool) (rest' : List Char) (t : Token) :
    ({ r with mark := m, keyAllowed := k', rest := rest' }.emit t).Stands depth k' rest'
      (ts ++ [t]) :=
  { h with
    keyAllowed_eq := rfl
    rest_eq := rfl
    tokens_eq := by
      show (t :: r.tokens).reverse = _
      rw [List.reverse_cons, h.tokens_eq] }

end Stands

/-! ### Between tokens -/

namespace Stands

theorem forgetStale (h : r.Stands depth k rest ts) : r.forgetStale = some r.fresh := by
  rw [Reader.forgetStale, List.mapM_eq_some_map fun p hp => ?_]
  · rfl
  · cases p with
    | none => rfl
    | some p =>
      rw [Option.filter_some]
      cases hstale : isStale r.mark p <;> simp [hstale, h.optional p hp]

theorem fresh (h : r.Stands depth k rest ts) : r.fresh.Stands depth k rest ts := by
  refine h.withPlaces (by rw [List.length_map, h.length_places]) fun p hp => ?_
  obtain ⟨q, hq, hfilter⟩ := List.mem_map.mp hp
  exact h.optional p ((Option.filter_eq_some_iff.mp hfilter).1 ▸ hq)

theorem closeBlocks (h : r.Stands depth k rest ts) (column : Int) : r.closeBlocks column = r := by
  rw [Reader.closeBlocks]
  split
  · rfl
  · rw [h.outer_eq]
    have := h.outer_eq
    cases r
    simp_all [closeFrom]

theorem forgetPlace (h : r.Stands depth k rest ts) :
    r.forgetPlace = some { r with places := none :: r.places.drop 1 } := by
  obtain ⟨p, ps, hplaces⟩ := h.places_eq_cons
  have hoptional := h.optional
  cases r
  cases p <;> simp_all [Reader.forgetPlace]

/-- Outside all blocks nothing requires a key. -/
theorem rememberPlace (h : r.Stands depth true rest ts) : r.rememberPlace =
    some { r with places := some ⟨r.tokens.length, r.mark, false⟩ :: r.places.drop 1 } := by
  have hcolumn : (r.indent == (r.mark.column : Int)) = false := by
    rw [h.indent_eq, beq_eq_false_iff_ne]
    omega
  rw [Reader.rememberPlace, if_pos h.keyAllowed_eq, h.forgetPlace, hcolumn, Bool.and_false]
  rfl

/-- Another place of the innermost brackets. -/
theorem withPlace (h : r.Stands depth k rest ts) (place : Option KeyPlace)
    (hplace : ∀ p, place = some p → p.required = false) :
    { r with places := place :: r.places.drop 1 }.Stands depth k rest ts := by
  refine h.withPlaces ?_ fun p hp => ?_
  · rw [List.length_cons, List.length_drop, h.length_places]
    omega
  · rcases List.mem_cons.mp hp with hp | hp
    · exact hplace p hp.symm
    · exact h.optional p (List.mem_of_mem_drop hp)

/-- Whether a place is remembered does not matter but for a key. -/
theorem exists_rememberPlace (h : r.Stands depth k rest ts) :
    ∃ r', r.rememberPlace = some r' ∧ r'.Stands depth k rest ts := by
  cases k with
  | true => exact ⟨_, h.rememberPlace, h.withPlace _ fun p hp => by cases hp; rfl⟩
  | false => exact ⟨r, by rw [Reader.rememberPlace, if_neg (by simp [h.keyAllowed_eq])], h⟩

theorem advanceToToken (h : r.Stands depth k rest ts) (hrest : atToken rest = true) :
    r.advanceToToken = r := by
  rw [Reader.advanceToToken, h.rest_eq]
  dsimp only
  split
  · cases hrest
  · rw [toToken_of_atToken hrest, ← h.rest_eq]

/-- A step of reading. -/
theorem readAll_succ (h : r.Stands depth k rest ts) (hrest : atToken rest = true) (fuel : Nat) :
    readAll (fuel + 1) r =
      match rest with
      | [] => r.fresh.finish
      | c :: cs => (r.fresh.readToken c cs).bind (readAll fuel) := by
  rw [readAll, h.advanceToToken hrest, h.forgetStale]
  show (match (r.fresh.closeBlocks r.fresh.mark.column).rest with | [] => _ | c :: cs => _) = _
  rw [h.fresh.closeBlocks, h.fresh.rest_eq]
  cases rest <;> rfl

/-- The end of the text adds nothing to what has been read. -/
theorem finish (h : r.Stands depth k [] ts) :
    ∃ r', r.finish = some r' ∧ r'.tokens.reverse = ts := by
  rw [Reader.finish]
  have hmark : (if r.mark.column = 0 then r
      else { r with mark := r.mark.newline 0 }).Stands depth k [] ts := by
    split
    · exact h
    · exact { h with }
  rw [hmark.closeBlocks, hmark.forgetPlace]
  exact ⟨_, rfl, hmark.tokens_eq⟩

theorem leads (h : r.Stands depth k (c :: cs) ts) (htoken : atToken (c :: cs) = true)
    (hstep : r.fresh.readToken c cs = some r') (hrest : r'.rest.length ≤ cs.length) :
    r.Leads r' := by
  refine ⟨1, ?_, fun fuel => ?_⟩
  · rw [h.rest_eq, List.length_cons]
    omega
  · rw [Nat.add_comm, h.readAll_succ htoken]
    exact congrArg (·.bind (readAll fuel)) hstep

/-- One token is read. -/
theorem reaches (h : r.Stands depth k (c :: cs) ts) (htoken : atToken (c :: cs) = true)
    (hstep : ∃ r', r.fresh.readToken c cs = some r' ∧ r'.Stands depth' k' rest ts')
    (hrest : rest.length ≤ cs.length) : r.Reaches depth' k' rest ts' := by
  obtain ⟨r', hstep, h'⟩ := hstep
  exact ⟨r', h.leads htoken hstep (by rwa [h'.rest_eq]), h'⟩

end Stands

/-! ### Token by token -/

theorem readToken_escaped {s : String} (hs : ∀ c ∈ s.toList, IsPrintable c)
    (hplace : r.rememberPlace = some r') (rest : List Char) :
    r.readToken '"' (s.toList.flatMap escapeChar ++ '"' :: rest) =
      some ({ r' with
        mark := r'.mark.advance (stringChars s).length
        keyAllowed := false
        rest }.emit (.scalar .doubleQuoted s.toList)) := by
  have hmark : r'.mark.next.advance ((s.toList.flatMap escapeChar).length + 1) =
      r'.mark.advance (stringChars s).length := by
    simp [Mark.advance, Mark.next, stringChars]
    omega
  have htext : doubleQuoted r'.mark.next [] {} (s.toList.flatMap escapeChar ++ '"' :: rest) = _ :=
    doubleQuoted_escaped hs rest (Nat.succ_ne_zero _) [] rfl
  rw [hmark] at htext
  simp [readToken, atSeparator, readQuoted, hplace, htext, emitScalar]

theorem readToken_letter {x : Char} (hx : x.isLower = true) :
    r.readToken x cs = r.readPlain := by
  have hne := ne_of_isLower hx
  have hbegins : beginsPlain r.inFlow x cs = true := by
    simp (disch := decide) [beginsPlain, isIndicator, isBlank, hne]
  have hsep := atSeparator_cons_eq_false (hne '-' rfl) (hne '.' rfl) r.mark cs
  simp (disch := decide) [readToken, hsep, hne, hbegins]

namespace Stands

theorem emitHere (h : r.Stands depth k (c :: cs) ts) (k' : Bool) (t : Token) :
    ({ r with keyAllowed := k' }.emitHere 1 t).Stands depth k' cs (ts ++ [t]) := by
  have hemit := h.emit (r.mark.advance 1) k' (r.rest.drop 1) t
  rw [h.rest_eq] at hemit
  simpa [Reader.emitHere, Reader.skip, h.rest_eq] using hemit

theorem openFlow (h : r.Stands depth k (c :: cs) ts) (t : Token) :
    ∃ r', r.openFlow t = some r' ∧ r'.Stands (depth + 1) true cs (ts ++ [t]) := by
  obtain ⟨r', hplace, h'⟩ := h.exists_rememberPlace
  refine ⟨_, by rw [Reader.openFlow, hplace]; rfl, ?_⟩
  have hplaces : { r' with places := none :: r'.places }.Stands (depth + 1) k (c :: cs) ts := by
    refine h'.withPlaces ?_ fun p hp => ?_
    · rw [List.length_cons, h'.length_places]
    · exact h'.optional p ((List.mem_cons.mp hp).resolve_left nofun)
  exact hplaces.emitHere true t

theorem closeFlow (h : r.Stands (depth + 1) k (c :: cs) ts) (t : Token) :
    ∃ r', r.closeFlow t = some r' ∧ r'.Stands depth false cs (ts ++ [t]) := by
  refine ⟨_, by rw [Reader.closeFlow, h.forgetPlace]; rfl, ?_⟩
  have hflow : { r with places := none :: r.places.drop 1 }.inFlow = true :=
    (h.withPlace none nofun).inFlow
  have hplaces : { r with places := r.places.drop 1 }.Stands depth k (c :: cs) ts := by
    refine h.withPlaces ?_ fun p hp => h.optional p (List.mem_of_mem_drop hp)
    rw [List.length_drop, h.length_places]
    omega
  rw [hflow]
  exact hplaces.emitHere false t

theorem openSequence (h : r.Stands depth k ('[' :: cs) ts) :
    r.Reaches (depth + 1) true cs (ts ++ [.flowSequenceStart]) := by
  refine h.reaches rfl ?_ (Nat.le_refl _)
  simpa [readToken, atSeparator] using h.fresh.openFlow .flowSequenceStart

theorem openMapping (h : r.Stands depth k ('{' :: cs) ts) :
    r.Reaches (depth + 1) true cs (ts ++ [.flowMappingStart]) := by
  refine h.reaches rfl ?_ (Nat.le_refl _)
  simpa [readToken, atSeparator] using h.fresh.openFlow .flowMappingStart

theorem closeSequence (h : r.Stands (depth + 1) k (']' :: cs) ts) :
    r.Reaches depth false cs (ts ++ [.flowSequenceEnd]) := by
  refine h.reaches rfl ?_ (Nat.le_refl _)
  simpa [readToken, atSeparator] using h.fresh.closeFlow .flowSequenceEnd

theorem closeMapping (h : r.Stands (depth + 1) k ('}' :: cs) ts) :
    r.Reaches depth false cs (ts ++ [.flowMappingEnd]) := by
  refine h.reaches rfl ?_ (Nat.le_refl _)
  simpa [readToken, atSeparator] using h.fresh.closeFlow .flowMappingEnd

theorem comma (h : r.Stands depth k (',' :: cs) ts) :
    r.Reaches depth true cs (ts ++ [.flowEntry]) := by
  refine h.reaches rfl ?_ (Nat.le_refl _)
  have hread : r.fresh.readToken ',' cs = some (({ r.fresh with
      places := none :: r.fresh.places.drop 1, keyAllowed := true }).emitHere 1 .flowEntry) := by
    simp [readToken, atSeparator, h.fresh.forgetPlace]
  exact ⟨_, hread, (h.fresh.withPlace none nofun).emitHere true .flowEntry⟩

theorem quoted {s : String} (h : r.Stands depth k (stringChars s ++ rest) ts)
    (hs : ∀ c ∈ s.toList, IsPrintable c) :
    r.Reaches depth false rest (ts ++ [.scalar .doubleQuoted s.toList]) := by
  rw [stringChars_append] at h
  refine h.reaches rfl ?_ (by simp; omega)
  obtain ⟨r', hplace, h'⟩ := h.fresh.exists_rememberPlace
  exact ⟨_, readToken_escaped hs hplace rest, h'.emit _ false rest _⟩

theorem word {w : List Char} (h : r.Stands (depth + 1) k (w ++ rest) ts)
    (hw : ∀ c ∈ w, c.isLower = true) (hne : w ≠ []) (hrest : EndsValue rest) :
    r.Reaches (depth + 1) false rest (ts ++ [.scalar .plain w]) := by
  obtain ⟨x, w, rfl⟩ := List.exists_cons_of_ne_nil hne
  have hx := hw x (List.mem_cons_self ..)
  refine h.reaches (atToken_of_isLower hx _) ?_ (by simp)
  obtain ⟨r', hplace, h'⟩ := h.fresh.exists_rememberPlace
  have htext := plain_word hw hrest (r'.indent + 1) true r'.mark []
  rw [List.cons_append] at htext
  refine ⟨_, ?_, h'.emit (r'.mark.advance (x :: w).length) false rest (.scalar .plain (x :: w))⟩
  rw [readToken_letter hx]
  simp [readPlain, hplace, h'.inFlow, h'.rest_eq, htext, emitScalar]

/-- A colon makes a key of the token at the remembered place. -/
theorem readValue {t : Token} (h : r.Stands (depth + 1) k (':' :: rest) (ts ++ [t]))
    {place : KeyPlace} {ps : List (Option KeyPlace)} (hplaces : r.places = some place :: ps)
    (hposition : place.position = ts.length) :
    ∃ r', r.readValue = some r' ∧
      r'.Stands (depth + 1) false rest (ts ++ [.key, t] ++ [.value]) := by
  have htokens : r.tokens = t :: ts.reverse := by
    rw [← List.reverse_inj, h.tokens_eq]
    simp
  have hinsert : { r with places := none :: ps, keyAllowed := false }.insertAt place.position .key =
      { r with places := none :: ps, keyAllowed := false, tokens := t :: .key :: ts.reverse } := by
    simp [insertAt, htokens, hposition]
  have hkey : { r with
      places := none :: ps
      keyAllowed := false
      tokens := t :: .key :: ts.reverse }.Stands (depth + 1) false (':' :: rest)
        (ts ++ [Token.key, t]) := by
    have hplace := h.withPlace none nofun
    rw [hplaces] at hplace
    exact { hplace with keyAllowed_eq := rfl, tokens_eq := by simp }
  refine ⟨_, ?_, hkey.emitHere false .value⟩
  rw [Reader.readValue, hplaces]
  dsimp only
  rw [hinsert, openBlock, if_pos hkey.inFlow]

/-- A colon is read while the place of the key before it is remembered. -/
theorem colon {t : Token} (h : r.Stands (depth + 1) k (':' :: rest) (ts ++ [t]))
    {place : KeyPlace} {ps : List (Option KeyPlace)} (hplaces : r.places = some place :: ps)
    (hposition : place.position = ts.length) (hstale : isStale r.mark place = false) :
    r.Reaches (depth + 1) false rest (ts ++ [.key, t] ++ [.value]) := by
  have hfresh : r.fresh.places = some place :: ps.map (·.filter fun p => !isStale r.mark p) := by
    rw [Reader.fresh, hplaces, List.map_cons, Option.filter_some, hstale]
    rfl
  refine h.reaches rfl ?_ (Nat.le_refl _)
  have hread : r.fresh.readToken ':' rest = r.fresh.readValue := by
    simp [readToken, atSeparator, h.fresh.inFlow]
  rw [hread]
  exact h.fresh.readValue hfresh hposition

/-- **A short key is read with its colon**, and the token that makes it a key comes before it. -/
theorem key {s : String} (h : r.Stands (depth + 1) true (stringChars s ++ ':' :: rest) ts)
    (hs : ∀ c ∈ s.toList, IsPrintable c) (hreach : (stringChars s).length ≤ keyReach) :
    r.Reaches (depth + 1) false rest
      (ts ++ [.key, .scalar .doubleQuoted s.toList] ++ [.value]) := by
  rw [stringChars_append] at h
  let place : KeyPlace := ⟨r.fresh.tokens.length, r.fresh.mark, false⟩
  have hplace := h.fresh.withPlace (some place) fun p hp => by
    cases hp
    rfl
  have hposition : place.position = ts.length := by
    rw [← h.fresh.tokens_eq, List.length_reverse]
  have hstale : isStale (r.fresh.mark.advance (stringChars s).length) place = false := by
    simp [isStale, place, Mark.advance, hreach]
  have hquoted := readToken_escaped hs h.fresh.rememberPlace (':' :: rest)
  refine (h.leads rfl hquoted ?_).reaches ((hplace.emit _ _ _ _).colon rfl hposition hstale)
  show (':' :: rest).length ≤ _
  simp
  omega

end Stands

/-- As many steps as a text has characters are enough, with one more at its end. -/
theorem Reaches.exists_readAll (h : r.Reaches depth k [] ts) :
    ∃ r', readAll (r.rest.length + 1) r = some r' ∧ r'.tokens.reverse = ts := by
  obtain ⟨r₁, ⟨n, hn, hread⟩, hend⟩ := h
  obtain ⟨r', hfinish, htokens⟩ := hend.fresh.finish
  obtain ⟨fuel, hfuel⟩ : ∃ fuel, r.rest.length + 1 = n + (fuel + 1) :=
    ⟨r.rest.length - n, by omega⟩
  refine ⟨r', ?_, htokens⟩
  rw [hfuel, hread, hend.readAll_succ rfl, ← hfinish]

end Reader

end Yaml

end Capsule
