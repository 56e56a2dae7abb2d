import Capsule.SystemVersion
import Mathlib.Data.List.DropRight
import Mathlib.Data.List.TakeWhile

/-!
# The version that is stated

`SystemVersion.major?` trims a line, looks for the name of the service manager, cuts out a word,
trims that in turn, and keeps the digits in front. This file says which lines come to a number in
that way, as a form that a line has and not as steps: blanks, the name with blanks behind it or no
name at all, quotation marks, and then digits.

## Nothing behind the number matters

Every step but the last may cut something off the end: a line is trimmed on both sides, a word ends
at a blank, and quotation marks are taken off at both ends. None of that reaches the digits, since a
digit is neither a blank nor a quotation mark. So the form asks one thing of what follows the
number, that the number does not go on there. For the same reason a carriage return at the end of
the line may count as a part of it or not (`SystemVersion.trim_firstLine`).

The front is less forgiving. Blanks may stand between the name and the quotation marks, but not
between the quotation marks and the number, and nothing else may come before the number.

## Main definitions

* `SystemVersion.Begins`: a text begins with a number, behind quotation marks or at once
* `SystemVersion.States`: a line states a number
* `SystemVersion.EndsLine`: what may follow a line

## Main results

* `SystemVersion.major?_eq_some_iff`: what is read is the number that the first line states
* `SystemVersion.versions_as_stated`
-/

namespace Capsule

/-! ### Trimming -/

namespace Blank

variable {p : Char → Bool} {outer core rest word : List Char}

/-- Dropping from the right stops at a core that does not end in what is dropped. -/
theorem rdropWhile_append (hne : core ≠ []) (hlast : ∀ c, core.getLast? = some c → p c = false) :
    (core ++ rest).rdropWhile p = core ++ rest.rdropWhile p := by
  -- The rest is dropped from its end, so that is where it is taken apart.
  induction rest using List.reverseRecOn with
  | nil =>
    rw [List.append_nil, List.rdropWhile_nil, List.append_nil, List.rdropWhile_eq_self_iff]
    intro _
    simp [hlast _ (List.getLast?_eq_some_getLast hne)]
  | append_singleton rest c ih =>
    rw [← List.append_assoc, List.rdropWhile_concat, List.rdropWhile_concat]
    split
    · exact ih
    · exact List.append_assoc ..

/-- A core that is not outer at either end is left, with some of what is behind it. -/
theorem trimBy_append (houter : ∀ c ∈ outer, p c = true) (hne : core ≠ [])
    (hfirst : ∀ c, core.head? = some c → p c = false)
    (hlast : ∀ c, core.getLast? = some c → p c = false) :
    trimBy p (outer ++ (core ++ rest)) = core ++ rest.rdropWhile p := by
  obtain ⟨c, cs, rfl⟩ := List.exists_cons_of_ne_nil hne
  have hdrop : (outer ++ (c :: cs ++ rest)).dropWhile p = c :: cs ++ rest := by
    rw [List.dropWhile_append_of_pos houter, List.cons_append,
      List.dropWhile_cons_of_neg (by simp [hfirst c rfl])]
  rw [trimBy, hdrop]
  exact rdropWhile_append hne hlast

/-- It does not matter whether an outer character stands at the end. -/
theorem trimBy_concat {c : Char} (hc : p c = true) (cs : List Char) :
    trimBy p (cs ++ [c]) = trimBy p cs := by
  have hdrop : (cs ++ [c]).dropWhile p = [] ∧ cs.dropWhile p = [] ∨
      (cs ++ [c]).dropWhile p = cs.dropWhile p ++ [c] := by
    rw [List.dropWhile_append]
    split
    · rename_i hempty
      exact .inl ⟨by simp [hc], List.isEmpty_iff.mp hempty⟩
    · exact .inr rfl
  rcases hdrop with ⟨hleft, hright⟩ | hdrop
  · rw [trimBy, trimBy, hleft, hright]
  · rw [trimBy, hdrop]
    exact List.rdropWhile_concat_pos p _ c hc

/-- Nothing but outer characters is trimmed off. -/
theorem exists_eq_trimBy (p : Char → Bool) (cs : List Char) :
    ∃ before behind, cs = before ++ (trimBy p cs ++ behind) ∧
      (∀ c ∈ before, p c = true) ∧ ∀ c ∈ behind, p c = true := by
  refine ⟨cs.takeWhile p, (cs.dropWhile p).rtakeWhile p, ?_, fun _ => List.mem_takeWhile_imp,
    fun _ => List.mem_rtakeWhile_imp⟩
  have hbehind : trimBy p cs ++ (cs.dropWhile p).rtakeWhile p = cs.dropWhile p :=
    List.rdropWhile_append_rtakeWhile
  rw [hbehind, List.takeWhile_append_dropWhile]

/-- A word is found behind blanks, and goes on up to the next one. -/
theorem firstWord_append (houter : ∀ c ∈ outer, isBlank c = true) (hne : word ≠ [])
    (hword : ∀ c ∈ word, isBlank c = false) :
    firstWord (outer ++ (word ++ rest)) = word ++ rest.takeWhile fun c => !isBlank c := by
  obtain ⟨c, cs, rfl⟩ := List.exists_cons_of_ne_nil hne
  rw [firstWord, List.dropWhile_append_of_pos houter, List.cons_append,
    List.dropWhile_cons_of_neg (by simp [hword c List.mem_cons_self]), ← List.cons_append]
  exact List.takeWhile_append_of_pos fun c hc => by simp [hword c hc]

/-- Nothing but blanks stands before the first word, and a blank or nothing right behind it. -/
theorem exists_eq_firstWord (cs : List Char) :
    ∃ before behind, cs = before ++ (firstWord cs ++ behind) ∧
      (∀ c ∈ before, isBlank c = true) ∧ ∀ c, behind.head? = some c → isBlank c = true := by
  refine ⟨cs.takeWhile isBlank, (cs.dropWhile isBlank).dropWhile fun c => !isBlank c, ?_,
    fun _ => List.mem_takeWhile_imp, fun c hc => ?_⟩
  · rw [firstWord, List.takeWhile_append_dropWhile, List.takeWhile_append_dropWhile]
  · have hnot := List.head?_dropWhile_not (fun c => !isBlank c) (cs.dropWhile isBlank)
    rw [hc] at hnot
    simpa using hnot

/-- A digit is no blank. -/
theorem isBlank_of_isDigit {c : Char} (h : c.isDigit = true) : isBlank c = false := by
  have hrange : 48 ≤ c.toNat ∧ c.toNat ≤ 57 := by
    simpa [Char.isDigit, UInt32.le_iff_toNat_le] using h
  have hne : c.toNat ≠ 0x20 ∧ c.toNat ≠ 0x85 ∧ c.toNat ≠ 0xA0 := by omega
  simp [isBlank]
  omega

end Blank

namespace SystemVersion

variable {text line body n rest behind : List Char}

/-! ### Numbers -/

/-- What may stand behind a number: nothing, or what does not begin with a digit. -/
def EndsNumber (rest : List Char) : Prop := ∀ c, rest.head? = some c → c.isDigit = false

theorem endsNumber_nil : EndsNumber [] := fun _ hc => by cases hc

theorem endsNumber_cons {c : Char} {cs : List Char} (h : c.isDigit = false) :
    EndsNumber (c :: cs) := by
  rintro _ ⟨⟩
  exact h

theorem endsNumber_of_blank (h : ∀ c, rest.head? = some c → Blank.isBlank c = true) :
    EndsNumber rest := by
  intro c hc
  rw [Bool.eq_false_iff]
  intro hdigit
  have hblank := Blank.isBlank_of_isDigit hdigit
  rw [h c hc] at hblank
  cases hblank

theorem EndsNumber.append (h : EndsNumber rest) (hbehind : EndsNumber behind) :
    EndsNumber (rest ++ behind) := by
  intro c hc
  cases rest with
  | nil => exact hbehind c hc
  | cons d rest => exact h c hc

theorem EndsNumber.of_prefix (h : EndsNumber rest) {kept : List Char} (hkept : kept <+: rest) :
    EndsNumber kept := by
  obtain ⟨cut, rfl⟩ := hkept
  exact fun c hc => h c (by rw [List.head?_append, hc, Option.some_or])

theorem endsNumber_dropWhile (cs : List Char) : EndsNumber (cs.dropWhile Char.isDigit) := by
  intro c hc
  have hnot := List.head?_dropWhile_not Char.isDigit cs
  rw [hc] at hnot
  simpa using hnot

/-- Digits are taken to the last. -/
theorem takeWhile_isDigit_append (hdigits : ∀ c ∈ n, c.isDigit = true) (hrest : EndsNumber rest) :
    (n ++ rest).takeWhile Char.isDigit = n := by
  rw [List.takeWhile_append_of_pos hdigits]
  cases rest with
  | nil => exact List.append_nil n
  | cons c rest => rw [List.takeWhile_cons_of_neg (by simp [hrest c rfl]), List.append_nil]

/-! ### Quotation marks -/

/-- A text begins with a number, behind quotation marks or at once. -/
inductive Begins : List Char → List Char → Prop
  | intro (quotes : List Char) {n rest : List Char} (are_quotes : ∀ c ∈ quotes, (c == '"') = true)
      (nonempty : n ≠ []) (digits : ∀ c ∈ n, c.isDigit = true) (ends : EndsNumber rest) :
      Begins (quotes ++ (n ++ rest)) n

theorem Begins.append (h : Begins body n) (hbehind : EndsNumber behind) :
    Begins (body ++ behind) n := by
  obtain ⟨quotes, hquotes, hne, hdigits, hends⟩ := h
  rw [List.append_assoc, List.append_assoc]
  exact .intro quotes hquotes hne hdigits (hends.append hbehind)

/-- The number is a part of the text. -/
theorem Begins.number (h : Begins body n) :
    n ≠ [] ∧ (∀ c ∈ n, c.isDigit = true) ∧ n <:+: body := by
  obtain @⟨quotes, n, rest, -, hne, hdigits, -⟩ := h
  exact ⟨hne, hdigits, quotes, rest, List.append_assoc ..⟩

/-- The first character is a quotation mark or a digit. -/
theorem Begins.head (h : Begins body n) :
    ∃ c cs, body = c :: cs ∧ (c = '"' ∨ c.isDigit = true) := by
  obtain @⟨quotes, n, rest, hquotes, hne, hdigits, -⟩ := h
  cases quotes with
  | nil =>
    obtain ⟨d, ds, rfl⟩ := List.exists_cons_of_ne_nil hne
    exact ⟨d, ds ++ rest, rfl, .inr (hdigits d List.mem_cons_self)⟩
  | cons c quotes =>
    exact ⟨c, quotes ++ (n ++ rest), rfl, .inl (eq_of_beq (hquotes c List.mem_cons_self))⟩

theorem Begins.head_not_blank (h : Begins body n) {c : Char} (hc : body.head? = some c) :
    Blank.isBlank c = false := by
  obtain ⟨d, cs, rfl, hd⟩ := h.head
  obtain rfl : d = c := Option.some.inj hc
  rcases hd with rfl | hd
  · rfl
  · exact Blank.isBlank_of_isDigit hd

/-- A digit is no quotation mark. -/
theorem beq_quote_of_isDigit {c : Char} (h : c.isDigit = true) : (c == '"') = false := by
  rw [beq_eq_false_iff_ne]
  rintro rfl
  cases h

/-- **A text begins with a number** just if digits are in front once quotation marks have been taken
off both ends. -/
theorem begins_iff : Begins body n ↔
    n ≠ [] ∧ (Blank.trimBy (· == '"') body).takeWhile Char.isDigit = n := by
  constructor
  · rintro ⟨quotes, hquotes, hne, hdigits, hends⟩
    have hnot : ∀ c ∈ n, (c == '"') = false := fun c hc => beq_quote_of_isDigit (hdigits c hc)
    refine ⟨hne, ?_⟩
    rw [Blank.trimBy_append hquotes hne (fun c hc => hnot c (List.mem_of_head? hc))
      fun c hc => hnot c (List.mem_of_getLast? hc)]
    exact takeWhile_isDigit_append hdigits (hends.of_prefix (List.rdropWhile_prefix _ _))
  · rintro ⟨hne, hn⟩
    obtain ⟨before, behind, hbody, hbefore, hbehind⟩ := Blank.exists_eq_trimBy (· == '"') body
    generalize Blank.trimBy (· == '"') body = core at hn hbody
    have hends : EndsNumber behind := fun c hc => by
      rw [eq_of_beq (hbehind c (List.mem_of_head? hc))]
      rfl
    have hcore : core = n ++ core.dropWhile Char.isDigit := by
      rw [← hn, List.takeWhile_append_dropWhile]
    rw [hbody, hcore, List.append_assoc]
    refine .intro before hbefore hne (fun c hc => ?_) ((endsNumber_dropWhile core).append hends)
    rw [← hn] at hc
    exact List.mem_takeWhile_imp hc

/-! ### Lines -/

/-- A line states a number: behind the name of the service manager, or else at once. -/
inductive States : List Char → List Char → Prop
  | named {blanks body n : List Char} (gap : List Char)
      (are_blank : ∀ c ∈ blanks, Blank.isBlank c = true)
      (gap_blank : ∀ c ∈ gap, Blank.isBlank c = true) (begins : Begins body n) :
      States (blanks ++ (banner ++ (gap ++ body))) n
  | bare {blanks body n : List Char} (are_blank : ∀ c ∈ blanks, Blank.isBlank c = true)
      (begins : Begins body n) : States (blanks ++ body) n

theorem States.append (h : States line n) (hbehind : EndsNumber behind) :
    States (line ++ behind) n := by
  cases h with
  | named gap hblanks hgap hbegins =>
    simp only [List.append_assoc]
    exact .named gap hblanks hgap (hbegins.append hbehind)
  | bare hblanks hbegins =>
    rw [List.append_assoc]
    exact .bare hblanks (hbegins.append hbehind)

/-- What a line states is a number, and a part of the line. -/
theorem States.number (h : States line n) :
    n ≠ [] ∧ (∀ c ∈ n, c.isDigit = true) ∧ n <:+: line := by
  cases h with
  | @named blanks body n gap _ _ hbegins =>
    obtain ⟨hne, hdigits, hpart⟩ := hbegins.number
    have hbody : body <:+ blanks ++ (banner ++ (gap ++ body)) :=
      ⟨blanks ++ (banner ++ gap), by simp only [List.append_assoc]⟩
    exact ⟨hne, hdigits, hpart.trans hbody.isInfix⟩
  | @bare blanks body n _ hbegins =>
    obtain ⟨hne, hdigits, hpart⟩ := hbegins.number
    exact ⟨hne, hdigits, hpart.trans (List.suffix_append blanks body).isInfix⟩

/-- Trimming leaves a number where it stands, and whatever is in front of it but the blanks. -/
theorem Begins.exists_trim {blanks : List Char} (h : Begins body n) (opening : List Char)
    (hblanks : ∀ c ∈ blanks, Blank.isBlank c = true)
    (hopening : ∀ c, (opening ++ body).head? = some c → Blank.isBlank c = false) :
    ∃ body', Blank.trim (blanks ++ (opening ++ body)) = opening ++ body' ∧ Begins body' n := by
  obtain @⟨quotes, n, rest, hquotes, hne, hdigits, hends⟩ := h
  refine ⟨quotes ++ (n ++ rest.rdropWhile Blank.isBlank), ?_,
    .intro quotes hquotes hne hdigits (hends.of_prefix (List.rdropWhile_prefix _ _))⟩
  have hcore : opening ++ (quotes ++ (n ++ rest)) = opening ++ quotes ++ n ++ rest := by
    simp only [List.append_assoc]
  rw [hcore, Blank.trim, Blank.trimBy_append hblanks (List.append_ne_nil_of_right_ne_nil _ hne)]
  · simp only [List.append_assoc]
  · intro c hc
    exact hopening c (by rw [hcore, List.head?_append, hc, Option.some_or])
  · intro c hc
    rw [List.getLast?_append_of_ne_nil _ hne] at hc
    exact Blank.isBlank_of_isDigit (hdigits c (List.mem_of_getLast? hc))

/-- A number stays in front when a word is cut out. -/
theorem Begins.firstWord {gap : List Char} (h : Begins body n)
    (hgap : ∀ c ∈ gap, Blank.isBlank c = true) : Begins (Blank.firstWord (gap ++ body)) n := by
  obtain @⟨quotes, n, rest, hquotes, hne, hdigits, hends⟩ := h
  have hword : ∀ c ∈ quotes ++ n, Blank.isBlank c = false := by
    intro c hc
    rcases List.mem_append.mp hc with hc | hc
    · rw [eq_of_beq (hquotes c hc)]
      rfl
    · exact Blank.isBlank_of_isDigit (hdigits c hc)
  rw [← List.append_assoc quotes, Blank.firstWord_append hgap
    (List.append_ne_nil_of_right_ne_nil _ hne) hword, List.append_assoc]
  exact .intro quotes hquotes hne hdigits (hends.of_prefix (List.takeWhile_prefix _))

theorem statement_banner (cs : List Char) : statement (banner ++ cs) = Blank.firstWord cs := by
  rw [statement, if_pos (List.isPrefixOf_iff_prefix.mpr (List.prefix_append ..)), List.drop_left]

/-- The name of the service manager is no number. -/
theorem Begins.statement_eq (h : Begins body n) : statement body = body := by
  refine if_neg fun hbanner => ?_
  obtain ⟨cs, hcs⟩ := List.isPrefixOf_iff_prefix.mp hbanner
  obtain ⟨c, cs', hbody, hc⟩ := h.head
  obtain rfl : 's' = c := (List.cons.inj (hcs.trans hbody)).1
  revert hc
  decide

/-- The statement of a line begins with the number that the line states. -/
theorem States.begins (h : States line n) : Begins (statement (Blank.trim line)) n := by
  cases h with
  | @named blanks body n gap hblanks hgap hbegins =>
    obtain ⟨body', htrim, hbegins'⟩ := hbegins.exists_trim (banner ++ gap) hblanks
      fun c hc => by
        obtain rfl : 's' = c := Option.some.inj hc
        rfl
    rw [List.append_assoc, List.append_assoc] at htrim
    rw [htrim, statement_banner]
    exact hbegins'.firstWord hgap
  | @bare blanks body n hblanks hbegins =>
    obtain ⟨body', htrim, hbegins'⟩ := hbegins.exists_trim [] hblanks
      fun c hc => hbegins.head_not_blank hc
    rw [List.nil_append, List.nil_append] at htrim
    rw [htrim, hbegins'.statement_eq]
    exact hbegins'

/-- A line states the number that its statement begins with. -/
theorem states_of_begins (h : Begins (statement (Blank.trim line)) n) : States line n := by
  obtain ⟨before, behind, hline, hbefore, hbehind⟩ := Blank.exists_eq_trimBy Blank.isBlank line
  have hends : EndsNumber behind :=
    endsNumber_of_blank fun c hc => hbehind c (List.mem_of_head? hc)
  rw [← Blank.trim] at hline
  rw [hline]
  by_cases hbanner : banner.isPrefixOf (Blank.trim line) = true
  · obtain ⟨cs, hcs⟩ := List.isPrefixOf_iff_prefix.mp hbanner
    rw [← hcs, statement_banner] at h
    obtain ⟨gap, others, hgap, hblank, hothers⟩ := Blank.exists_eq_firstWord cs
    -- Behind the number come the rest of its word, the other words, and what was trimmed off.
    have hsplit : banner ++ cs ++ behind =
        banner ++ (gap ++ (Blank.firstWord cs ++ (others ++ behind))) := by
      rw [List.append_assoc, ← List.append_assoc _ others, ← List.append_assoc gap, ← hgap]
    rw [← hcs, hsplit]
    exact .named gap hbefore hblank (h.append ((endsNumber_of_blank hothers).append hends))
  · rw [statement, if_neg hbanner] at h
    exact .bare hbefore (h.append hends)

/-! ### Texts -/

/-- A carriage return at the end of the first line is a blank there, and trimmed off like others. -/
theorem trim_firstLine (text : List Char) :
    Blank.trim (firstLine text) = Blank.trim (text.takeWhile (· ≠ '\n')) := by
  obtain ⟨line, hline⟩ : ∃ line, line = text.takeWhile (· ≠ '\n') := ⟨_, rfl⟩
  rw [firstLine, ← hline]
  split
  · rename_i rest hrest
    have hconcat : line = rest.reverse ++ ['\r'] := by
      rw [← List.reverse_reverse line, hrest, List.reverse_cons]
    rw [hconcat]
    exact (Blank.trimBy_concat rfl _).symm
  · rfl

theorem major?_eq_some_iff_begins :
    major? text = some n ↔ Begins (statement (Blank.trim (firstLine text))) n := by
  rw [begins_iff, major?]
  cases (Blank.trimBy (· == '"') (statement (Blank.trim (firstLine text)))).takeWhile
    Char.isDigit with
  | nil => simp [eq_comm]
  | cons d ds => simp +contextual [and_iff_right_of_imp, eq_comm]

/-- **What is read is the number that the first line states**, if it states one. -/
theorem major?_eq_some_iff : major? text = some n ↔ States (firstLine text) n := by
  rw [major?_eq_some_iff_begins]
  exact ⟨states_of_begins, States.begins⟩

example : major? "systemd  \"255\" (255.4)".toList = some "255".toList := by decide

example : major? "\" 255\"".toList = none := by decide

/-- What may follow a line: nothing, or an end of line and other lines. -/
inductive EndsLine : List Char → Prop
  | nothing : EndsLine []
  | lineFeed (others : List Char) : EndsLine ('\n' :: others)
  | carriageReturn (others : List Char) : EndsLine ('\r' :: '\n' :: others)

/-- **A line that states a number is read as that number**, whatever lines follow. -/
theorem major?_append {after : List Char} (h : States line n) (hline : '\n' ∉ line)
    (hafter : EndsLine after) : major? (line ++ after) = some n := by
  have hall : ∀ c ∈ line, decide (c ≠ '\n') = true := fun c hc =>
    decide_eq_true fun heq => hline (heq ▸ hc)
  rw [major?_eq_some_iff_begins, trim_firstLine, List.takeWhile_append_of_pos hall]
  refine (h.append ?_).begins
  cases hafter with
  | nothing => exact endsNumber_nil
  | lineFeed others => exact endsNumber_nil
  | carriageReturn others => exact endsNumber_cons rfl

/-- A line feed is no digit. -/
theorem lineFeed_notMem (h : ∀ c ∈ n, c.isDigit = true) : '\n' ∉ n := fun hc => by
  cases h _ hc

/-- A number is read as itself. -/
theorem major?_self (hne : n ≠ []) (hdigits : ∀ c ∈ n, c.isDigit = true) :
    major? n = some n := by
  have hbegins : Begins ([] ++ (n ++ [])) n :=
    .intro [] (List.forall_mem_nil _) hne hdigits endsNumber_nil
  have hstates : States ([] ++ ([] ++ (n ++ []))) n := .bare (List.forall_mem_nil _) hbegins
  simp only [List.nil_append, List.append_nil] at hstates
  have hread := major?_append hstates (lineFeed_notMem hdigits) .nothing
  rwa [List.append_nil] at hread

/-- **Versions are read as they are stated.** A number is read behind the name of the service
manager, alone, and in quotation marks, whatever blanks stand before it on the first line and
whatever follows it, on that line and on others. What is read of any text is a number on its first
line, and is read as itself; and nothing is read of a first line without digits. -/
theorem versions_as_stated :
    (∀ blanks n s after, (∀ c ∈ blanks, Blank.isBlank c = true ∧ c ≠ '\n') →
      n ≠ [] → (∀ c ∈ n, c.isDigit = true) → EndsNumber s → '\n' ∉ s → EndsLine after →
        major? (blanks ++ ("systemd ".toList ++ (n ++ s)) ++ after) = some n ∧
        major? (blanks ++ (n ++ s) ++ after) = some n ∧
        major? (blanks ++ (['"'] ++ (n ++ s) ++ ['"']) ++ after) = some n) ∧
    (∀ text n, major? text = some n → n ≠ [] ∧ (∀ c ∈ n, c.isDigit = true) ∧
      n <:+: firstLine text ∧ major? n = some n) ∧
    ∀ text, (∀ c ∈ firstLine text, c.isDigit = false) → major? text = none := by
  refine ⟨fun blanks n s after hblanks hne hdigits hs hline hafter => ?_, fun text n h => ?_,
    fun text hnone => ?_⟩
  · have hblank : ∀ c ∈ blanks, Blank.isBlank c = true := fun c hc => (hblanks c hc).1
    have hbreak : '\n' ∉ blanks := fun hc => (hblanks _ hc).2 rfl
    have hnumber : '\n' ∉ n := lineFeed_notMem hdigits
    have hbegins : Begins (n ++ s) n := .intro [] (List.forall_mem_nil _) hne hdigits hs
    have hquoted : Begins (['"'] ++ (n ++ s)) n := .intro ['"'] (by simp) hne hdigits hs
    have hquote : EndsNumber ['"'] := endsNumber_cons rfl
    exact ⟨major?_append (.named [] hblank (List.forall_mem_nil _) hbegins) (by simp [*]) hafter,
      major?_append (.bare hblank hbegins) (by simp [*]) hafter,
      major?_append (.bare hblank (hquoted.append hquote)) (by simp [*]) hafter⟩
  · obtain ⟨hne, hdigits, hpart⟩ := (major?_eq_some_iff.mp h).number
    exact ⟨hne, hdigits, hpart, major?_self hne hdigits⟩
  · rw [Option.eq_none_iff_forall_ne_some]
    intro n h
    obtain ⟨hne, hdigits, hpart⟩ := (major?_eq_some_iff.mp h).number
    obtain ⟨c, cs, rfl⟩ := List.exists_cons_of_ne_nil hne
    have hdigit := hdigits c List.mem_cons_self
    rw [hnone c (hpart.subset List.mem_cons_self)] at hdigit
    cases hdigit

/-- What two managers say of their version, and what is said of one that is missing. -/
theorem versions_as_stated_by_managers :
    major? "systemd 255 (255.4-1ubuntu8.4)\n+PAM +AUDIT +SELINUX\n".toList = some "255".toList ∧
      major? "\"242.19-1\"".toList = some "242".toList ∧
      major? "command not found".toList = none := by
  obtain ⟨hstated, -, hnone⟩ := versions_as_stated
  have hletters : (firstLine "command not found".toList).all (fun c => !c.isDigit) = true := by
    decide
  refine ⟨?_, ?_, hnone _ fun c hc => by simpa using List.all_eq_true.mp hletters c hc⟩
  · exact (hstated [] "255".toList " (255.4-1ubuntu8.4)".toList "\n+PAM +AUDIT +SELINUX\n".toList
      (List.forall_mem_nil _) (by decide) (List.all_eq_true.mp rfl) (endsNumber_cons rfl)
      (by decide) (.lineFeed _)).1
  · exact (hstated [] "242".toList ".19-1".toList [] (List.forall_mem_nil _) (by decide)
      (List.all_eq_true.mp rfl) (endsNumber_cons rfl) (by decide) .nothing).2.2

end SystemVersion

end Capsule
