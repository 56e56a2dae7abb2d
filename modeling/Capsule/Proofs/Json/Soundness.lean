import Capsule.Proofs.Json.Grammar
import Mathlib.Data.List.TakeWhile

/-!
# What is read is in the grammar

`Doc.exists_reads` says that the reader takes every text of the grammar. Here is the other half: a
document that could be skipped was read from a text of the grammar, so that nothing else gets by.

The reader never fails, but leaves a fault standing at its place in the document. What tells a whole
document from a broken one is `Decode.skip`, which walks all of it and minds nothing but the grammar.
So it stands for acceptance here, and each decoder has only to be compared with it.

Leaves come first: strings with their escapes, the parts of numbers, words. Each is taken off the
front of the text together with what is left of it, and values follow by the recursion of the
reader.

## Keys

Skipping does not mind a key that stands for nothing, a lone half of a surrogate pair. So a document
shows a text member by member only as far as its keys could be read (`Doc.ShowsKey`), and it is for
the decoder of a record to ask for all of them.

## Main definitions

* `Doc.Shows`: a text that a document can have been read from

## Main results

* `Doc.denotes_of_assemble`: the characters of a string are those that it stands for
* `Doc.shows_of_value`: a value that can be skipped was read from one of the grammar
* `Doc.exists_shows_of_read`: so was a whole document
-/

namespace Capsule

namespace Doc

open Json

/-! ### Strings -/

section

variable {cs s rest : List Char} {ps : List Piece}

theorem mem_escapes {l c : Char} (h : escaped? l = some c) : (l, c) ∈ escapes := by
  unfold escaped? at h
  split at h
  all_goals cases h
  all_goals decide

/-- What is read up to a quotation mark is a string. -/
theorem isString_of_pieces (h : pieces cs = (ps, .ok rest)) :
    ∃ k, cs = k ++ '"' :: rest ∧ IsString k := by
  fun_induction pieces cs generalizing ps with
  | case1 | case3 | case5 | case6 | case8 | case9 => cases h
  | case2 cs =>
    cases h
    exact ⟨[], rfl, .nil⟩
  | case4 a b c d cs n hn ps' rest' hpieces ih =>
    cases h
    obtain ⟨k, rfl, hk⟩ := ih hpieces
    exact ⟨_, rfl, .codeUnit hn hk⟩
  | case7 l cs hunit hnot c hescape ps' rest' hpieces ih =>
    cases h
    obtain ⟨k, rfl, hk⟩ := ih hpieces
    exact ⟨_, rfl, .letter (mem_escapes hescape) hk⟩
  | case10 c cs hquote hunit hshort hescape hlast hcontrol ps' rest' hpieces ih =>
    cases h
    obtain ⟨k, rfl, hk⟩ := ih hpieces
    have hplain : c ≠ '\\' := fun hc => by
      cases k with
      | nil => exact hescape _ _ hc rfl
      | cons c' k => exact hescape _ _ hc rfl
    exact ⟨_, rfl, .plain (Nat.le_of_not_lt hcontrol) hquote hplain hk⟩

/-- A code unit at the front is written there. -/
theorem exists_codeUnit (h : IsString cs) {m : Nat} {ps : List Piece}
    (hps : pieces (cs ++ '"' :: rest) = (.codeUnit m :: ps, .ok rest)) :
    ∃ a b c d cs', cs = '\\' :: 'u' :: a :: b :: c :: d :: cs' ∧
      Hex.number? [a, b, c, d] = some m ∧ IsString cs' ∧
      pieces (cs' ++ '"' :: rest) = (ps, .ok rest) := by
  cases h with
  | nil => cases hps
  | plain no_control no_quote no_escape others =>
    rw [List.cons_append, pieces_plain no_control no_quote no_escape] at hps
    cases hps
  | letter escape others =>
    rw [List.cons_append, List.cons_append, pieces_letter escape] at hps
    cases hps
  | codeUnit digits others =>
    simp only [List.cons_append, pieces_codeUnit digits, Prod.mk.injEq, List.cons.injEq,
      Piece.codeUnit.injEq] at hps
    obtain ⟨⟨rfl, hps⟩, hrest⟩ := hps
    exact ⟨_, _, _, _, _, rfl, digits, others, Prod.ext hps hrest⟩

/-- Half of a surrogate pair is put together with nothing but the other half. -/
theorem exists_half {n : Nat} (half : ¬ (n < 0xD800 ∨ 0xE000 ≤ n)) {ps : List Piece}
    (hs : assemble false (.codeUnit n :: ps) = some s) : ∃ m ps', ps = .codeUnit m :: ps' ∧
      (0xD800 ≤ n ∧ n < 0xDC00) ∧ 0xDC00 ≤ m ∧ m < 0xE000 := by
  rw [assemble.eq_def] at hs
  dsimp only at hs
  split at hs
  · cases hs
  · rename_i hlow
    have hhigh : 0xD800 ≤ n ∧ n < 0xDC00 := by
      simp only [isLow, Bool.and_eq_true, decide_eq_true_eq] at hlow
      omega
    rw [if_pos (by simpa [isHigh] using hhigh)] at hs
    cases ps with
    | nil => cases hs
    | cons p ps =>
      cases p with
      | char c => cases hs
      | codeUnit m =>
        dsimp only at hs
        split at hs
        · rename_i hm
          exact ⟨m, ps, rfl, hhigh, by simpa [isLow] using hm⟩
        · cases hs

/-- A string whose pieces can be put together stands for what comes of that. -/
theorem denotes_of_assemble {k s : List Char} (h : IsString k) {ps : List Piece}
    {rest : List Char} (hps : pieces (k ++ '"' :: rest) = (ps, .ok rest))
    (hs : assemble false ps = some s) : Denotes k s := by
  match k, h with
  | _, .nil =>
    cases hps
    cases hs
    exact .nil
  | _, .plain no_control no_quote no_escape others =>
    obtain ⟨qs, hqs⟩ := exists_pieces others
    rw [List.cons_append, pieces_plain no_control no_quote no_escape, hqs] at hps
    cases hps
    obtain ⟨s', hs', rfl⟩ := Option.map_eq_some_iff.mp hs
    exact .plain no_control no_quote no_escape (denotes_of_assemble others (hqs rest) hs')
  | _, .letter escape others =>
    obtain ⟨qs, hqs⟩ := exists_pieces others
    rw [List.cons_append, List.cons_append, pieces_letter escape, hqs] at hps
    cases hps
    obtain ⟨s', hs', rfl⟩ := Option.map_eq_some_iff.mp hs
    exact .letter escape (denotes_of_assemble others (hqs rest) hs')
  | _, @IsString.codeUnit a b c d n cs digits others =>
    obtain ⟨qs, hqs⟩ := exists_pieces others
    simp only [List.cons_append, pieces_codeUnit digits, hqs] at hps
    cases hps
    by_cases whole : n < 0xD800 ∨ 0xE000 ≤ n
    · rw [assemble_codeUnit whole] at hs
      obtain ⟨s', hs', rfl⟩ := Option.map_eq_some_iff.mp hs
      exact .codeUnit digits whole (denotes_of_assemble others (hqs rest) hs')
    · -- A half stands for something only if the other half follows.
      obtain ⟨m, qs', rfl, is_high, is_low⟩ := exists_half whole hs
      obtain ⟨a', b', c', d', cs', hcs, digits', others', hps'⟩ :=
        exists_codeUnit others (hqs rest)
      have hshorter : cs'.length < cs.length := by
        rw [hcs]
        simp only [List.length_cons]
        omega
      rw [assemble_pair is_high is_low] at hs
      obtain ⟨s', hs', rfl⟩ := Option.map_eq_some_iff.mp hs
      rw [hcs]
      exact .pair digits is_high digits' is_low (denotes_of_assemble others' hps' hs')
termination_by k.length
decreasing_by all_goals (simp only [List.length_cons]; omega)

/-- A string has been read to its closing quotation mark, and its reading is what it stands for. -/
theorem isString_of_stringRest {key : Except Fault String}
    (h : stringRest cs = (key, .ok rest)) :
    ∃ k, cs = k ++ '"' :: rest ∧ IsString k ∧ ∀ s, key = .ok s → Denotes k s.toList := by
  obtain ⟨ps, r, hpieces⟩ : ∃ ps r, pieces cs = (ps, r) := ⟨_, _, rfl⟩
  rw [stringRest, hpieces] at h
  cases r with
  | error f => cases h
  | ok rest' =>
    dsimp only at h
    obtain rfl : rest' = rest := by
      split at h <;> cases h <;> rfl
    obtain ⟨k, rfl, hk⟩ := isString_of_pieces hpieces
    refine ⟨k, rfl, hk, fun s hs => ?_⟩
    cases hassemble : assemble false ps with
    | none =>
      rw [hassemble, hs] at h
      cases h
    | some s' =>
      rw [hassemble, hs] at h
      cases h
      rw [String.toList_ofList]
      exact denotes_of_assemble hk hpieces hassemble

end

/-! ### Numbers -/

section

variable {cs ds rest : List Char} {n n' : Numeral}

theorem isDigits_of_digits (h : Numeral.digits cs = .ok (ds, rest)) :
    cs = ds ++ rest ∧ IsDigits ds := by
  cases cs with
  | nil => cases h
  | cons c cs =>
    rw [Numeral.digits] at h
    split at h
    · rename_i hc
      cases h
      refine ⟨List.takeWhile_append_dropWhile.symm, ?_, fun c hc => List.mem_takeWhile_imp hc⟩
      rw [List.takeWhile_cons_of_pos hc]
      exact List.cons_ne_nil _ _
    · cases h

theorem isExponent_of_scan (h : Numeral.scanExponent n cs = .ok (n', rest)) :
    ∃ x, cs = x ++ rest ∧ IsExponent x := by
  cases cs with
  | nil =>
    cases h
    exact ⟨[], rfl, .none⟩
  | cons e cs =>
    unfold Numeral.scanExponent at h
    dsimp only at h
    split at h
    · rename_i hletter
      split at h
      · cases h
      · rename_i negative ds rest' hdigits
        cases h
        split at hdigits
        · obtain ⟨rfl, hds⟩ := isDigits_of_digits hdigits
          exact ⟨e :: (['+'] ++ ds), by simp, .digits hletter (.inr (.inl rfl)) hds⟩
        · obtain ⟨rfl, hds⟩ := isDigits_of_digits hdigits
          exact ⟨e :: (['-'] ++ ds), by simp, .digits hletter (.inr (.inr rfl)) hds⟩
        · obtain ⟨rfl, hds⟩ := isDigits_of_digits hdigits
          exact ⟨e :: ([] ++ ds), rfl, .digits hletter (.inl rfl) hds⟩
    · cases h
      exact ⟨[], rfl, .none⟩

theorem isFraction_of_scan (h : Numeral.scanFraction n cs = .ok (n', rest)) :
    ∃ x y, cs = x ++ (y ++ rest) ∧ IsFraction x ∧ IsExponent y := by
  unfold Numeral.scanFraction at h
  split at h
  · split at h
    · cases h
    · rename_i ds rest' hdigits
      obtain ⟨rfl, hds⟩ := isDigits_of_digits hdigits
      obtain ⟨y, rfl, hy⟩ := isExponent_of_scan h
      exact ⟨'.' :: ds, y, rfl, .digits hds, hy⟩
  · obtain ⟨y, rfl, hy⟩ := isExponent_of_scan h
    exact ⟨[], y, rfl, .none, hy⟩

theorem isNumber_of_scanWhole {negative : Bool} {sign : List Char}
    (signed : sign = [] ∨ sign = ['-']) (h : Numeral.scanWhole negative cs = .ok (n, rest)) :
    ∃ v, sign ++ cs = v ++ rest ∧ IsNumber v := by
  rw [Numeral.scanWhole] at h
  split at h
  · cases h
  · rename_i ds rest' hdigits
    obtain ⟨rfl, hds⟩ := isDigits_of_digits hdigits
    split at h
    · cases h
    · rename_i hzero
      obtain ⟨x, y, rfl, hx, hy⟩ := isFraction_of_scan h
      refine ⟨sign ++ (ds ++ (x ++ y)), by simp, .mk signed hds (fun hhead => ?_) hx hy⟩
      -- A zero in front of other digits is refused.
      obtain ⟨c, ds, rfl⟩ := List.exists_cons_of_ne_nil hds.nonempty
      obtain rfl : c = '0' := Option.some.inj hhead
      cases ds with
      | nil => rfl
      | cons c ds => exact absurd ⟨rfl, by simp⟩ hzero

/-- What has been read of a number is a number. -/
theorem isNumber_of_scan (h : Numeral.scan cs = .ok (n, rest)) :
    ∃ v, cs = v ++ rest ∧ IsNumber v := by
  unfold Numeral.scan at h
  split at h
  · exact isNumber_of_scanWhole (.inr rfl) h
  · exact isNumber_of_scanWhole (.inl rfl) h

end

/-! ### Values -/

theorem exists_blanks (cs : List Char) : ∃ b, Blanks b ∧ cs = b ++ skipBlanks cs :=
  ⟨cs.takeWhile isBlank, fun _ hc => List.mem_takeWhile_imp hc,
    List.takeWhile_append_dropWhile.symm⟩

/-- A word is read whole. -/
theorem eq_of_word {expected cs : List Char} {v d : Doc} {r : Option (List Char)}
    (h : word expected v cs = (d, r)) (hskip : Decode.skip d = .ok ()) :
    d = v ∧ ∃ rest, r = some rest ∧ cs = expected ++ rest := by
  rw [word] at h
  fun_induction word.go v expected cs with
  | case1 cs =>
    cases h
    exact ⟨rfl, cs, rfl, rfl⟩
  | case2 =>
    cases h
    cases hskip
  | case3 c es cs ih =>
    obtain ⟨hd, rest, hr, rfl⟩ := ih h
    exact ⟨hd, rest, hr, rfl⟩
  | case4 =>
    cases h
    cases hskip

/-- A key that can be read stands for its reading. -/
def ShowsKey (m : Key × Doc) (written : List Char × List Char) : Prop :=
  ∀ name, m.1 = .text (.ok name) → Denotes written.1 name.toList

/-- A text that a document can have been read from. -/
def Shows : Doc → List Char → Prop
  | .array _ _, cs => ∃ vs, IsArray vs cs
  | .object ms _, cs => ∃ written, IsObject written cs ∧ List.Forall₂ ShowsKey ms written
  | _, cs => IsValue cs

theorem Shows.isValue {d : Doc} {cs : List Char} (h : Shows d cs) : IsValue cs := by
  cases d with
  | array => exact .array h.choose_spec
  | object => exact .object h.choose_spec.1
  | _ => exact h

/-- Where all keys could be read, the members have names. -/
theorem exists_isNamed {ms : List (Key × Doc)} {written : List (List Char × List Char)}
    (h : List.Forall₂ ShowsKey ms written) (hkeys : ∀ m ∈ ms, ∃ name, m.1 = .text (.ok name)) :
    ∃ named, List.Forall₂ IsNamed written named := by
  induction h with
  | nil => exact ⟨[], .nil⟩
  | @cons m w ms written hkey _ ih =>
    obtain ⟨⟨name, hname⟩, hkeys⟩ := List.forall_mem_cons.mp hkeys
    obtain ⟨named, hnamed⟩ := ih hkeys
    exact ⟨(name, w.2) :: named, .cons ⟨hkey name hname, rfl⟩ hnamed⟩

/-! ### Values that can be skipped -/

theorem skip_array_iff {ds : List Doc} {e : Ending} :
    Decode.skip (.array ds e) = .ok () ↔
      Decode.skipItems ds = .ok () ∧ Decode.ending e = .ok () := by
  rw [Decode.skip]
  exact Except.seq_eq_ok_iff

theorem skip_object_iff {ms : List (Key × Doc)} {e : Ending} :
    Decode.skip (.object ms e) = .ok () ↔
      Decode.skipMembers ms = .ok () ∧ Decode.ending e = .ok () := by
  rw [Decode.skip]
  exact Except.seq_eq_ok_iff

theorem skipItems_cons_iff {d : Doc} {ds : List Doc} :
    Decode.skipItems (d :: ds) = .ok () ↔
      Decode.skip d = .ok () ∧ Decode.skipItems ds = .ok () := by
  rw [Decode.skipItems]
  exact Except.seq_eq_ok_iff

theorem skipMembers_cons_iff {key : Except Fault String} {d : Doc} {ms : List (Key × Doc)} :
    Decode.skipMembers ((.text key, d) :: ms) = .ok () ↔
      Decode.skip d = .ok () ∧ Decode.skipMembers ms = .ok () := by
  rw [Decode.skipMembers]
  exact Except.seq_eq_ok_iff

mutual

/-- **A value that can be skipped was read from one of the grammar**, and so were the items and the
members that are left at any place in an array or object. -/
theorem shows_of_value {fuel : Nat} {cs : List Char} {d : Doc} {r : Option (List Char)}
    (h : value fuel cs = (d, r)) (hskip : Decode.skip d = .ok ()) :
    ∃ b v rest, r = some rest ∧ cs = b ++ (v ++ rest) ∧ Blanks b ∧ Shows d v := by
  cases fuel with
  | zero =>
    cases h
    cases hskip
  | succ fuel =>
    obtain ⟨b, hb, hcs⟩ := exists_blanks cs
    suffices hshows : ∃ v rest, r = some rest ∧ skipBlanks cs = v ++ rest ∧ Shows d v by
      obtain ⟨v, rest, hr, hv, hshows⟩ := hshows
      exact ⟨b, v, rest, hr, hcs.trans (by rw [hv]), hb, hshows⟩
    rw [value] at h
    -- One case for each token that a value can begin with.
    split at h
    · cases h
      cases hskip
    · rename_i cs' hfront
      obtain ⟨rfl, rest, rfl, rfl⟩ := eq_of_word h hskip
      exact ⟨_, rest, rfl, hfront, .null⟩
    · rename_i cs' hfront
      obtain ⟨rfl, rest, rfl, rfl⟩ := eq_of_word h hskip
      exact ⟨_, rest, rfl, hfront, .true⟩
    · rename_i cs' hfront
      obtain ⟨rfl, rest, rfl, rfl⟩ := eq_of_word h hskip
      exact ⟨_, rest, rfl, hfront, .false⟩
    · rename_i cs' hfront
      split at h
      · rename_i reading rest hstring
        cases h
        obtain ⟨k, rfl, hk, -⟩ := isString_of_stringRest hstring
        exact ⟨'"' :: (k ++ ['"']), rest, rfl, by simp [hfront], .string hk⟩
      · cases h
        cases hskip
      · cases h
        cases hskip
    · rename_i cs' hfront
      obtain ⟨b', hb', hcs'⟩ := exists_blanks cs'
      split at h
      rename_i ds e r' hitems
      cases h
      obtain ⟨hds, he⟩ := skip_array_iff.mp hskip
      split at hitems
      · rename_i rest hclosed
        cases hitems
        exact ⟨'[' :: (b' ++ [']']), rest, rfl, by rw [hfront, hcs', hclosed]; simp, [],
          .empty hb'⟩
      · cases hitems
        cases he
      · obtain ⟨b'', v, vs, x, rest, rfl, hitem, hb'', hv, hvs⟩ := isItems_of_items hitems hds he
        exact ⟨'[' :: (b' ++ b'' ++ (v ++ x)), rest, rfl,
          by rw [hfront, hcs', hitem]; simp, v :: vs,
          .items (List.forall_mem_append.mpr ⟨hb', hb''⟩) hv hvs⟩
    · rename_i cs' hfront
      obtain ⟨a, ha, hcs'⟩ := exists_blanks cs'
      split at h
      rename_i ms e r' hmembers
      cases h
      obtain ⟨hms, he⟩ := skip_object_iff.mp hskip
      split at hmembers
      · rename_i rest hclosed
        cases hmembers
        exact ⟨'{' :: (a ++ ['}']), rest, rfl, by rw [hfront, hcs', hclosed]; simp, [],
          .empty ha, .nil⟩
      · cases hmembers
        cases he
      · obtain ⟨k, v, written, b', c, x, rest, rfl, hmember, hk, hb', hc, hv, hothers, hkeys⟩ :=
          isMembers_of_members hmembers hms he
        exact ⟨'{' :: (a ++ '"' :: (k ++ '"' :: (b' ++ ':' :: (c ++ (v ++ x))))), rest, rfl,
          by rw [hfront, hcs', hmember]; simp, (k, v) :: written,
          .members ha hk hb' hc hv hothers, hkeys⟩
    · rename_i c cs' hfront
      split at h
      · rename_i hc
        rw [numberAt] at h
        split at h
        · cases h
          cases hskip
        · rename_i n rest hscan
          cases h
          obtain ⟨v, hv, hnumber⟩ := isNumber_of_scan hscan
          exact ⟨v, rest, rfl, hfront.trans hv, .number hnumber⟩
      · cases h
        cases hskip

theorem isItems_of_items {fuel : Nat} {cs : List Char} {ds : List Doc} {e : Ending}
    {r : Option (List Char)} (h : items fuel cs = (ds, e, r))
    (hds : Decode.skipItems ds = .ok ()) (he : Decode.ending e = .ok ()) :
    ∃ b v vs x rest, r = some rest ∧ cs = b ++ (v ++ (x ++ rest)) ∧ Blanks b ∧ IsValue v ∧
      IsItems vs x := by
  cases fuel with
  | zero =>
    cases h
    cases he
  | succ fuel =>
    rw [items] at h
    obtain ⟨d, r', hvalue⟩ : ∃ d r', value fuel cs = (d, r') := ⟨_, _, rfl⟩
    rw [hvalue] at h
    have hread (hd : Decode.skip d = .ok ()) := shows_of_value hvalue hd
    cases r' with
    | none =>
      -- The item is broken, and so cannot be skipped.
      cases h
      obtain ⟨_, _, _, hnone, -⟩ := hread (skipItems_cons_iff.mp hds).1
      cases hnone
    | some more =>
      obtain ⟨a, ha, hmore⟩ := exists_blanks more
      dsimp only at h
      split at h
      · rename_i rest hclosed
        cases h
        obtain ⟨b, v, _, ⟨⟩, rfl, hb, hv⟩ := hread (skipItems_cons_iff.mp hds).1
        exact ⟨b, v, [], a ++ [']'], rest, rfl, by rw [hmore, hclosed]; simp, hb, hv.isValue,
          .nil ha⟩
      · rename_i next hcomma
        split at h
        · cases h
          cases he
        · cases h
          cases he
        · obtain ⟨ds', e', r', hitems⟩ : ∃ ds' e' r', items fuel (skipBlanks next) =
              (ds', e', r') := ⟨_, _, _, rfl⟩
          rw [hitems] at h
          cases h
          obtain ⟨hd, hds'⟩ := skipItems_cons_iff.mp hds
          obtain ⟨c, hc, hnext⟩ := exists_blanks next
          obtain ⟨b, v, _, ⟨⟩, rfl, hb, hv⟩ := hread hd
          obtain ⟨c', w, vs, x, rest, rfl, hw, hc', hitem, hvs⟩ := isItems_of_items hitems hds' he
          refine ⟨b, v, w :: vs, a ++ ',' :: (c ++ c' ++ (w ++ x)), rest, rfl, ?_, hb, hv.isValue,
            .cons ha (List.forall_mem_append.mpr ⟨hc, hc'⟩) hitem hvs⟩
          rw [hmore, hcomma, hnext, hw]
          simp
      · cases h
        cases he

theorem isMembers_of_members {fuel : Nat} {cs : List Char} {ms : List (Key × Doc)} {e : Ending}
    {r : Option (List Char)} (h : members fuel cs = (ms, e, r))
    (hms : Decode.skipMembers ms = .ok ()) (he : Decode.ending e = .ok ()) :
    ∃ k v written b c x rest, r = some rest ∧
      cs = '"' :: (k ++ '"' :: (b ++ ':' :: (c ++ (v ++ (x ++ rest))))) ∧ IsString k ∧ Blanks b ∧
      Blanks c ∧ IsValue v ∧ IsMembers written x ∧
      List.Forall₂ ShowsKey ms ((k, v) :: written) := by
  cases fuel with
  | zero =>
    cases h
    cases he
  | succ fuel =>
    rw [members.eq_def] at h
    dsimp only at h
    split at h
    · rename_i cs'
      split at h
      · cases h
        cases (skipMembers_cons_iff.mp hms).1
      · rename_i key behindKey hkey
        obtain ⟨b, hb, hbehindKey⟩ := exists_blanks behindKey
        obtain ⟨k, rfl, hk, hdenotes⟩ := isString_of_stringRest hkey
        split at h
        · rename_i behindColon hcolon
          obtain ⟨d, r', hvalue⟩ : ∃ d r', value fuel behindColon = (d, r') := ⟨_, _, rfl⟩
          rw [hvalue] at h
          have hread (hd : Decode.skip d = .ok ()) := shows_of_value hvalue hd
          have hshows (v : List Char) : ShowsKey (.text key, d) (k, v) := fun name hname =>
            hdenotes name (Key.text.inj hname)
          cases r' with
          | none =>
            cases h
            obtain ⟨_, _, _, hnone, -⟩ := hread (skipMembers_cons_iff.mp hms).1
            cases hnone
          | some more =>
            obtain ⟨a, ha, hmore⟩ := exists_blanks more
            dsimp only at h
            split at h
            · rename_i rest hclosed
              cases h
              obtain ⟨c, v, _, ⟨⟩, rfl, hc, hv⟩ := hread (skipMembers_cons_iff.mp hms).1
              refine ⟨k, v, [], b, c, a ++ ['}'], rest, rfl, ?_, hk, hb, hc, hv.isValue, .nil ha,
                .cons (hshows v) .nil⟩
              rw [hbehindKey, hcolon, hmore, hclosed]
              simp
            · rename_i next hcomma
              split at h
              · cases h
                cases he
              · cases h
                cases he
              · obtain ⟨ms', e', r', hmembers⟩ : ∃ ms' e' r', members fuel (skipBlanks next) =
                    (ms', e', r') := ⟨_, _, _, rfl⟩
                rw [hmembers] at h
                cases h
                obtain ⟨hd, hms'⟩ := skipMembers_cons_iff.mp hms
                obtain ⟨d', hd', hnext⟩ := exists_blanks next
                obtain ⟨c, v, _, ⟨⟩, rfl, hc, hv⟩ := hread hd
                obtain ⟨k', v', written, b', c', x, rest, rfl, hmember, hk', hb', hc', hv',
                  hothers, hkeys⟩ := isMembers_of_members hmembers hms' he
                refine ⟨k, v, (k', v') :: written, b, c, a ++ ',' :: (d' ++ '"' :: (k' ++ '"' ::
                  (b' ++ ':' :: (c' ++ (v' ++ x))))), rest, rfl, ?_, hk, hb, hc, hv.isValue,
                  .cons ha hd' hk' hb' hc' hv' hothers, .cons (hshows v) hkeys⟩
                rw [hbehindKey, hcolon, hmore, hcomma, hnext, hmember]
                simp
            · cases h
              cases he
        · cases h
          cases (skipMembers_cons_iff.mp hms).1
    · cases h
      cases hms

end

/-- **A whole document that can be skipped was read from a text of the grammar.** -/
theorem exists_shows_of_read {text : List Char} {d : Doc} (h : read text = (d, none))
    (hskip : Decode.skip d = .ok ()) :
    ∃ a cs b, text = a ++ (cs ++ b) ∧ Blanks a ∧ Shows d cs ∧ Blanks b := by
  rw [read] at h
  split at h
  · rename_i d' hvalue
    cases h
    obtain ⟨_, _, _, hnone, -⟩ := shows_of_value hvalue hskip
    cases hnone
  · rename_i d' rest hvalue
    obtain ⟨rfl, hrest⟩ := Prod.mk.inj h
    obtain ⟨a, cs, rest, ⟨⟩, rfl, ha, hshows⟩ := shows_of_value hvalue hskip
    obtain ⟨b, hb, hcs⟩ := exists_blanks rest
    have hend : skipBlanks rest = [] := by
      by_contra hne
      rw [if_neg (by simpa using hne)] at hrest
      cases hrest
    rw [hend, List.append_nil] at hcs
    exact ⟨a, cs, b, by rw [hcs], ha, hshows, hb⟩

end Doc

end Capsule
