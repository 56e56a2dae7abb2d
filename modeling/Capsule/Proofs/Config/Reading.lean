import Capsule.Config.Arguments
import Capsule.Config.Validation
import Mathlib

/-!
# Reading arguments back

An argument list has no marks between its parts: what is left out leaves no gap, and a value may
look like an option. Still the list can be read back from the left, since every part begins with a
word that no later part begins with. This file reads it back, and says of which configurations that
succeeds: `Config.arguments_determine`.

## Sections

All options have one form. A `Keyword` introduces any number of items, each with a value that stands
nowhere, in the next word or behind an equals sign; a flag is an item without a value, a setting is
one item or none, and a map is an item for each entry. `Config.sections` lists the keywords with
their values, so that the list is written and read by one recursion each, and the only fact about
the seventeen keywords is `keywords_pairwise`: none opens with a word of another.

## What can be mistaken

The command comes last and without a mark, so that its first word decides whether all is read back:
`Config.options_append_inj` asks that this word opens no section. It is needed, and the command is
all that can be mistaken then: `Config.command_eq_or_opens` speaks of any two configurations. A key
is read up to the first separator, and must not have one.

## Main definitions

* `Keyword`, `Keyword.Opens`: what introduces an option, and the words that do
* `Config.sections`: the options of a configuration, with their values
* `Reading.ofWords?`: reads an argument list back

## Main results

* `Section.readAll_written`: sections are read back in front of anything that opens none of them
* `Config.arguments_determine`: an argument list determines what is in it
* `Config.command_eq_or_opens`: a command is determined, unless it begins like an option
-/

namespace Capsule

/-- Where the value of an option stands. -/
inductive Layout
  /-- There is none. -/
  | alone
  /-- In the next word. -/
  | next
  /-- Behind an equals sign in the same word. -/
  | attached
deriving DecidableEq, Repr

/-- What introduces an option. -/
structure Keyword where
  name : String
  layout : Layout
deriving DecidableEq, Repr

namespace Keyword

/-- How the first word of an item begins, and how it ends too unless a value is attached. -/
def stem (k : Keyword) : List Char :=
  if k.layout = .attached then k.name.toList ++ ['='] else k.name.toList

/-- The words that introduce an item, as characters. -/
def Matches (k : Keyword) (cs : List Char) : Prop :=
  if k.layout = .attached then k.stem <+: cs else cs = k.stem

instance (k : Keyword) (cs : List Char) : Decidable (k.Matches cs) :=
  inferInstanceAs (Decidable (ite _ _ _))

/-- The words that introduce an item. -/
abbrev Opens (k : Keyword) (word : String) : Prop := k.Matches word.toList

/-- An item with a value, which is empty where none is written. -/
def item (k : Keyword) (value : String) : List String :=
  match k.layout with
  | .alone => [k.name]
  | .next => [k.name, value]
  | .attached => [k.name ++ "=" ++ value]

/-- The item that words begin with, if they do: its value, and the words behind it. -/
def read? (k : Keyword) : List String → Option (String × List String)
  | [] => none
  | word :: rest =>
    match k.layout with
    | .alone => if word = k.name then some ("", rest) else none
    | .next => if word = k.name then rest.head?.map fun value => (value, rest.tail) else none
    | .attached =>
      (k.stem.isPrefixOf? word.toList).map fun value => (String.ofList value, rest)

variable {k l : Keyword} {words rest : List String} {value : String}

theorem length_read? (h : k.read? words = some (value, rest)) : rest.length < words.length := by
  obtain ⟨name, layout⟩ := k
  cases words with
  | nil => cases h
  | cons word words =>
    cases layout with
    | alone =>
      obtain ⟨-, h⟩ := Option.ite_none_right_eq_some.mp h
      cases h
      exact Nat.lt_succ_self _
    | next =>
      obtain ⟨-, h⟩ := Option.ite_none_right_eq_some.mp h
      obtain ⟨_, -, h⟩ := Option.map_eq_some_iff.mp h
      cases h
      simp only [List.length_cons, List.length_tail]
      omega
    | attached =>
      obtain ⟨_, -, h⟩ := Option.map_eq_some_iff.mp h
      cases h
      exact Nat.lt_succ_self _

/-- An item is read back, whatever follows it. -/
theorem read?_item (hk : k.layout = .alone → value = "") (rest : List String) :
    k.read? (k.item value ++ rest) = some (value, rest) := by
  obtain ⟨name, layout⟩ := k
  cases layout with
  | alone => simp [item, read?, hk rfl]
  | next => simp [item, read?]
  | attached =>
    have hbegins : List.isPrefixOf? (stem ⟨name, .attached⟩) (name ++ "=" ++ value).toList =
        some value.toList := by
      rw [List.isPrefixOf?_eq_some_iff_append_eq]
      simp [stem]
    show ((stem ⟨name, .attached⟩).isPrefixOf? (name ++ "=" ++ value).toList).map _ = _
    rw [hbegins]
    simp

/-- Where no item begins, none is read. -/
theorem read?_of_not_opens (h : ∀ word ∈ words.head?, ¬ k.Opens word) : k.read? words = none := by
  obtain ⟨name, layout⟩ := k
  cases words with
  | nil => rfl
  | cons word words =>
    have hword : ¬ Opens ⟨name, layout⟩ word := h word rfl
    cases layout with
    | alone =>
      have hne : word ≠ name := fun he => hword (by simp [Matches, stem, he])
      simp [read?, hne]
    | next =>
      have hne : word ≠ name := fun he => hword (by simp [Matches, stem, he])
      simp [read?, hne]
    | attached =>
      have hnone : (stem ⟨name, .attached⟩).isPrefixOf? word.toList = none := by
        rw [Option.eq_none_iff_forall_ne_some]
        intro rest hrest
        exact hword ⟨rest, List.isPrefixOf?_eq_some_iff_append_eq.mp hrest⟩
      simp [read?, hnone]

/-- The first word of an item opens it. -/
theorem opens_item (k : Keyword) (value : String) : ∀ word ∈ (k.item value).head?, k.Opens word := by
  obtain ⟨name, layout⟩ := k
  intro word hword
  cases layout with
  | alone =>
    obtain rfl : name = word := by simpa [item] using hword
    simp [Matches, stem]
  | next =>
    obtain rfl : name = word := by simpa [item] using hword
    simp [Matches, stem]
  | attached =>
    obtain rfl : name ++ "=" ++ value = word := by simpa [item] using hword
    simp [Matches, stem]

/-- Keywords that no word opens both of. It is enough to look at the stems. -/
def Apart (k l : Keyword) : Prop := ¬ k.Matches l.stem ∧ ¬ l.Matches k.stem

instance (k l : Keyword) : Decidable (k.Apart l) := inferInstanceAs (Decidable (_ ∧ _))

theorem Apart.not_opens (h : k.Apart l) {word : String} (hk : k.Opens word) : ¬ l.Opens word := by
  intro hl
  by_cases hka : k.layout = .attached
  · have hkw : k.stem <+: word.toList := by simpa only [Opens, Matches, if_pos hka] using hk
    by_cases hla : l.layout = .attached
    · have hlw : l.stem <+: word.toList := by simpa only [Opens, Matches, if_pos hla] using hl
      rcases List.prefix_or_prefix_of_prefix hkw hlw with hp | hp
      · exact h.1 (by simpa only [Matches, if_pos hka] using hp)
      · exact h.2 (by simpa only [Matches, if_pos hla] using hp)
    · have hlw : word.toList = l.stem := by simpa only [Opens, Matches, if_neg hla] using hl
      exact h.1 (hlw ▸ hk)
  · have hkw : word.toList = k.stem := by simpa only [Opens, Matches, if_neg hka] using hk
    exact h.2 (hkw ▸ hl)

/-- All items that words begin with: their values, and the words behind them. -/
def readAll (k : Keyword) (words : List String) : List String × List String :=
  match h : k.read? words with
  | none => ([], words)
  | some (value, rest) =>
    have : rest.length < words.length := length_read? h
    let (values, rest) := readAll k rest
    (value :: values, rest)
termination_by words.length
decreasing_by exact this

/-- Items are read back in front of words that do not begin with another one. -/
theorem readAll_items {values : List String} (hk : k.layout = .alone → ∀ v ∈ values, v = "")
    (hrest : ∀ word ∈ rest.head?, ¬ k.Opens word) :
    k.readAll (values.flatMap k.item ++ rest) = (values, rest) := by
  induction values with
  | nil =>
    rw [List.flatMap_nil, List.nil_append, readAll]
    split
    · rfl
    · rename_i h
      rw [read?_of_not_opens hrest] at h
      cases h
  | cons value values ih =>
    have hvalue : k.layout = .alone → value = "" := fun h => hk h value (List.mem_cons_self ..)
    have hvalues : k.layout = .alone → ∀ v ∈ values, v = "" := fun h v hv =>
      hk h v (List.mem_cons_of_mem _ hv)
    rw [List.flatMap_cons, List.append_assoc, readAll]
    split
    · rename_i h
      rw [read?_item hvalue] at h
      cases h
    · rename_i h
      rw [read?_item hvalue] at h
      cases h
      rw [ih hvalues]

end Keyword

/-! ### Sections -/

/-- A keyword, with the values of its items. -/
abbrev Section := Keyword × List String

namespace Section

/-- The words of a section. -/
def words (x : Section) : List String := x.2.flatMap x.1.item

/-- A keyword that takes no value has none. -/
def IsProper (x : Section) : Prop := x.1.layout = .alone → ∀ v ∈ x.2, v = ""

/-- Sections one after the other. -/
def written (xs : List Section) : List String := xs.flatMap words

/-- Reads a section for each keyword: the values, and the words behind them. -/
def readAll : List Keyword → List String → List (List String) × List String
  | [], words => ([], words)
  | k :: ks, words =>
    let (values, words) := k.readAll words
    let (rest, words) := readAll ks words
    (values :: rest, words)

/-- A section begins with a word of its keyword, if it is not empty. -/
theorem opens_of_mem_head?_words {x : Section} {word : String} (h : word ∈ x.words.head?) :
    x.1.Opens word := by
  obtain ⟨k, values⟩ := x
  cases values with
  | nil => cases h
  | cons value values =>
    have hne : k.item value ≠ [] := by
      cases hl : k.layout <;> simp [Keyword.item, hl]
    rw [words, List.flatMap_cons, List.head?_append_of_ne_nil _ hne] at h
    exact k.opens_item value word h

/-- What begins sections that something follows is a word of one of them, or begins what
follows. -/
theorem head?_written_append {xs : List Section} {rest : List String} {word : String}
    (h : word ∈ (written xs ++ rest).head?) :
    (∃ x ∈ xs, x.1.Opens word) ∨ word ∈ rest.head? := by
  induction xs with
  | nil => exact .inr h
  | cons x xs ih =>
    rw [written, List.flatMap_cons, List.append_assoc] at h
    by_cases hx : x.words = []
    · rw [hx, List.nil_append] at h
      exact (ih h).imp_left fun ⟨y, hy, ho⟩ => ⟨y, List.mem_cons_of_mem _ hy, ho⟩
    · rw [List.head?_append_of_ne_nil _ hx] at h
      exact .inl ⟨x, List.mem_cons_self .., opens_of_mem_head?_words h⟩

/-- **Sections are read back**, in front of anything that opens none of them. -/
theorem readAll_written {xs : List Section} {rest : List String}
    (hapart : (xs.map (·.1)).Pairwise Keyword.Apart) (hproper : ∀ x ∈ xs, x.IsProper)
    (hrest : ∀ word ∈ rest.head?, ∀ x ∈ xs, ¬ x.1.Opens word) :
    readAll (xs.map (·.1)) (written xs ++ rest) = (xs.map (·.2), rest) := by
  -- Reading stops at the end of a section: the next word opens a later section, or begins the rest.
  induction xs with
  | nil => rfl
  | cons x xs ih =>
    obtain ⟨hx, hxs⟩ := List.pairwise_cons.mp hapart
    have hhead : ∀ word ∈ (written xs ++ rest).head?, ¬ x.1.Opens word := by
      intro word hword ho
      rcases head?_written_append hword with ⟨y, hy, hoy⟩ | hword
      · exact (hx y.1 (List.mem_map_of_mem hy)).not_opens ho hoy
      · exact hrest word hword x (List.mem_cons_self ..) ho
    have htail := ih hxs (fun y hy => hproper y (List.mem_cons_of_mem _ hy))
      fun word hword y hy => hrest word hword y (List.mem_cons_of_mem _ hy)
    have hsection : x.1.readAll (x.words ++ (written xs ++ rest)) = (x.2, written xs ++ rest) :=
      Keyword.readAll_items (hproper x (List.mem_cons_self ..)) hhead
    rw [written, List.flatMap_cons, List.append_assoc, ← written]
    simp only [List.map_cons, readAll, hsection, htail]

end Section

namespace Config

variable {c d : Config}

/-! ### The options of a configuration -/

/-- A flag, as items without a value. -/
def marks (b : Bool) : List String := if b then [""] else []

/-- A setting that may be left out. -/
def setting (value : String) : List String := if value.isEmpty then [] else [value]

/-- The entries of a map. -/
def pairs (separator : String) (m : StringMap) : List String :=
  m.toList.map fun e => e.1 ++ separator ++ e.2

/-- The options, with their values. -/
def sections (c : Config) : List Section :=
  [(⟨"--boot", .alone⟩, marks c.boot),
   (⟨"--ephemeral", .alone⟩, marks c.ephemeral),
   (⟨"--as-pid2", .alone⟩, marks c.processTwo),
   (⟨"--read-only", .alone⟩, marks c.readOnly),
   (⟨"-U", .alone⟩, marks c.userNamespacing),
   (⟨"--console", .attached⟩, setting c.console),
   (⟨"--machine", .next⟩, setting c.machine),
   (⟨"--pivot-root", .next⟩, setting c.pivotRoot),
   (⟨"--resolv-conf", .next⟩, setting c.resolvConf),
   (⟨"--user", .next⟩, setting c.user),
   (⟨"--volatile", .attached⟩, setting c.volatile),
   (⟨"--chdir", .next⟩, setting c.workingDirectory),
   (⟨"--network-namespace-path", .next⟩, setting c.networkNamespace),
   (⟨"--bind", .next⟩, pairs ":" c.bind),
   (⟨"--bind-ro", .next⟩, pairs ":" c.bindReadOnly),
   (⟨"-E", .next⟩, pairs "=" c.environment),
   (⟨"--property", .attached⟩, pairs "=" c.properties)]

/-- The keywords of all options, in the order in which they are written. -/
def keywords : List Keyword := (sections {}).map (·.1)

theorem keywords_pairwise : keywords.Pairwise Keyword.Apart := by decide

theorem flag_eq (b : Bool) (name : String) :
    flag b name = Section.words (⟨name, .alone⟩, marks b) := by
  cases b <;> rfl

theorem option_eq (name value : String) :
    option name value = Section.words (⟨name, .next⟩, setting value) := by
  rw [option, setting]
  split <;> rfl

theorem assignment_eq (name value : String) :
    assignment name value = Section.words (⟨name, .attached⟩, setting value) := by
  rw [assignment, setting]
  split <;> rfl

theorem entries_eq (name separator : String) (m : StringMap) :
    entries name separator m = Section.words (⟨name, .next⟩, pairs separator m) := by
  rw [entries, Section.words, pairs, List.flatMap_map]
  rfl

theorem properties_eq (m : StringMap) :
    (m.toList.map fun e => "--property=" ++ e.1 ++ "=" ++ e.2) =
      Section.words (⟨"--property", .attached⟩, pairs "=" m) := by
  have hitem : ∀ e : String × String, "--property=" ++ e.1 ++ "=" ++ e.2 =
      "--property" ++ "=" ++ (e.1 ++ "=" ++ e.2) := by
    intro e
    rw [show "--property=" = "--property" ++ "=" from rfl]
    simp only [String.append_assoc]
  rw [Section.words, pairs, List.flatMap_map, List.map_eq_flatMap]
  simp only [hitem]
  rfl

/-- The options are their sections, one after the other. -/
theorem options_eq_written (c : Config) : c.options = Section.written c.sections := by
  simp only [options, flags, laterOptions, sections, Section.written, List.flatMap_cons,
    List.flatMap_nil, List.append_nil, List.append_assoc, flag_eq, option_eq, assignment_eq,
    entries_eq, properties_eq]

theorem eq_of_mem_marks {b : Bool} {v : String} (h : v ∈ marks b) : v = "" := by
  cases b with
  | false => cases h
  | true => exact List.mem_singleton.mp h

theorem isProper_of_mem_sections {x : Section} (hx : x ∈ c.sections) : x.IsProper := by
  intro halone v hv
  simp only [sections, List.mem_cons, List.not_mem_nil, or_false] at hx
  rcases hx with rfl | rfl | rfl | rfl | rfl | h
  iterate 5 exact eq_of_mem_marks hv
  rcases h with rfl | rfl | rfl | rfl | rfl | rfl | rfl | rfl | rfl | rfl | rfl | rfl <;>
    cases halone

/-- A word that is written where an option begins. -/
def OpensOption (word : String) : Prop := ∃ k ∈ keywords, k.Opens word

/-- The options are read back in front of a command that does not begin like one. -/
theorem readAll_options (c : Config) {command : List String}
    (h : ∀ word ∈ command.head?, ¬ OpensOption word) :
    Section.readAll keywords (c.options ++ command) = (c.sections.map (·.2), command) := by
  have hkeywords : keywords = c.sections.map (·.1) := rfl
  rw [options_eq_written, hkeywords]
  refine Section.readAll_written keywords_pairwise (fun x hx => isProper_of_mem_sections hx) ?_
  intro word hword x hx ho
  exact h word hword ⟨x.1, List.mem_map_of_mem (f := (·.1)) hx, ho⟩

/-- Options and a command are told apart, unless the command begins like an option. -/
theorem options_append_inj {a b : List String} (ha : ∀ word ∈ a.head?, ¬ OpensOption word)
    (hb : ∀ word ∈ b.head?, ¬ OpensOption word) (h : c.options ++ a = d.options ++ b) :
    c.sections.map (·.2) = d.sections.map (·.2) ∧ a = b := by
  have hread := readAll_options c ha
  rw [h, readAll_options d hb] at hread
  exact ⟨(Prod.mk.inj hread).1.symm, (Prod.mk.inj hread).2.symm⟩

/-- Of two commands behind options that make one list, the longer begins like an option. -/
theorem opens_of_length_lt {a b : List String} (h : c.options ++ a = d.options ++ b)
    (hlt : b.length < a.length) : ∃ word ∈ a.head?, OpensOption word := by
  by_contra hnone
  have hnone : ∀ word ∈ a.head?, ¬ OpensOption word := fun word hword ho =>
    hnone ⟨word, hword, ho⟩
  -- the surplus of the longer command is written as options of the other configuration
  obtain ⟨surplus, hd, rfl⟩ : ∃ surplus, d.options = c.options ++ surplus ∧ a = surplus ++ b := by
    rcases List.append_eq_append_iff.mp h with ⟨t, h₁, h₂⟩ | ⟨t, h₁, h₂⟩
    · exact ⟨t, h₁, h₂⟩
    · rw [h₂, List.length_append] at hlt
      omega
  have hhead : ∀ word ∈ surplus.head?, ¬ OpensOption word := by
    intro word hword
    refine hnone word ?_
    rw [List.head?_append, Option.mem_def.mp hword]
    rfl
  have hsame : c.options ++ surplus = d.options ++ [] := by rw [hd, List.append_nil]
  rw [(options_append_inj hhead (by simp) hsame).2] at hlt
  exact Nat.lt_irrefl _ hlt

/-! ### Values -/

/-- The parts of a text before and behind the first separator. -/
def cut (separator : Char) (s : String) : String × String :=
  (String.ofList (s.toList.takeWhile (· ≠ separator)),
    String.ofList (s.toList.dropWhile (· ≠ separator)).tail)

theorem cut_append {separator : Char} {mark k v : String} (hm : mark.toList = [separator])
    (hk : separator ∉ k.toList) : cut separator (k ++ mark ++ v) = (k, v) := by
  have hall : ∀ x ∈ k.toList, decide (x ≠ separator) = true := fun x hx =>
    decide_eq_true fun he => hk (he ▸ hx)
  have hlist : (k ++ mark ++ v).toList = k.toList ++ separator :: v.toList := by
    simp [hm]
  rw [cut, hlist, List.takeWhile_append_of_pos hall, List.dropWhile_append_of_pos hall]
  simp

/-- The map that entries were written from. -/
def mapOf (separator : Char) (values : List String) : StringMap :=
  .ofList (values.map (cut separator))

theorem mapOf_pairs {separator : Char} {mark : String} {m : StringMap}
    (hm : mark.toList = [separator]) (hkeys : ∀ e ∈ m.toList, separator ∉ e.1.toList) :
    mapOf separator (pairs mark m) = m := by
  have hid : (pairs mark m).map (cut separator) = m.toList :=
    calc (m.toList.map fun e => e.1 ++ mark ++ e.2).map (cut separator)
        = m.toList.map id := by
          rw [List.map_map]
          exact List.map_congr_left fun e he => cut_append hm (hkeys e he)
      _ = m.toList := List.map_id _
  rw [mapOf, hid, TextMap.ofList_toList]

theorem isEmpty_marks (b : Bool) : (marks b).isEmpty = !b := by cases b <;> rfl

theorem headD_setting (value : String) : (setting value).headD "" = value := by
  rw [setting]
  split
  · rename_i h
    exact (String.isEmpty_iff.mp h).symm
  · rfl

/-- The configuration with these values of its options, and this command. -/
def ofValues (command : List String) : List (List String) → Option Config
  | [boot, ephemeral, processTwo, readOnly, userNamespacing, console, machine, pivotRoot,
      resolvConf, user, volatile, workingDirectory, networkNamespace, bind, bindReadOnly,
      environment, properties] =>
    some {
      boot := !boot.isEmpty
      ephemeral := !ephemeral.isEmpty
      processTwo := !processTwo.isEmpty
      readOnly := !readOnly.isEmpty
      userNamespacing := !userNamespacing.isEmpty
      command
      console := console.headD ""
      machine := machine.headD ""
      pivotRoot := pivotRoot.headD ""
      resolvConf := resolvConf.headD ""
      user := user.headD ""
      volatile := volatile.headD ""
      workingDirectory := workingDirectory.headD ""
      networkNamespace := networkNamespace.headD ""
      bind := mapOf ':' bind
      bindReadOnly := mapOf ':' bindReadOnly
      environment := mapOf '=' environment
      properties := mapOf '=' properties }
  | _ => none

/-- What a configuration says of the container: its flags, settings, maps and its command. It leaves
out which image is meant. -/
def described (c : Config) : Config := { c with image := "", download := none, imagePath := none }

/-- Keys have no separators in them, and the command does not begin like an option. -/
structure IsLegible (c : Config) : Prop where
  bind : ∀ e ∈ c.bind.toList, ':' ∉ e.1.toList
  bindReadOnly : ∀ e ∈ c.bindReadOnly.toList, ':' ∉ e.1.toList
  environment : ∀ e ∈ c.environment.toList, '=' ∉ e.1.toList
  properties : ∀ e ∈ c.properties.toList, '=' ∉ e.1.toList
  command : ∀ word ∈ c.command.head?, word.toList.head? ≠ some '-'

theorem ofValues_sections (h : c.IsLegible) :
    ofValues c.command (c.sections.map (·.2)) = some c.described := by
  have hcolon : ":".toList = [':'] := rfl
  have hequals : "=".toList = ['='] := rfl
  simp only [sections, List.map_cons, List.map_nil, ofValues, isEmpty_marks, Bool.not_not,
    headD_setting, mapOf_pairs hcolon h.bind, mapOf_pairs hcolon h.bindReadOnly,
    mapOf_pairs hequals h.environment, mapOf_pairs hequals h.properties]
  rfl

/-- Every option begins with a dash. -/
theorem head?_of_opensOption {word : String} (h : OpensOption word) :
    word.toList.head? = some '-' := by
  obtain ⟨k, hk, ho⟩ := h
  have hstem : ∀ k ∈ keywords, k.stem.head? = some '-' := by decide
  have hbegins : k.stem <+: word.toList := by
    rw [Keyword.Opens, Keyword.Matches] at ho
    split at ho
    · exact ho
    · exact ho ▸ List.prefix_rfl
  obtain ⟨rest, hrest⟩ := hbegins
  rw [← hrest, List.head?_append, hstem k hk]
  rfl

theorem IsLegible.not_opensOption (h : c.IsLegible) : ∀ word ∈ c.command.head?,
    ¬ OpensOption word := fun word hword ho => h.command word hword (head?_of_opensOption ho)

end Config

/-- What an argument list says: how the image is introduced, where it is, and what is said of the
container. -/
structure Reading where
  selector : String
  path : String
  config : Config

/-- Reads an argument list back. -/
def Reading.ofWords? : List String → Option Reading
  | selector :: path :: words =>
    let (values, command) := Section.readAll Config.keywords words
    (Config.ofValues command values).map (⟨selector, path, ·⟩)
  | _ => none

namespace Config

variable {c d : Config} {host : Host} {path : String} {entry : Entry} {words : List String}

/-! ### The whole list -/

theorem ofWords?_arguments (h : c.IsLegible) (selector path : String) :
    Reading.ofWords? (selector :: path :: (c.options ++ c.command)) =
      some ⟨selector, path, c.described⟩ := by
  simp only [Reading.ofWords?, readAll_options c h.not_opensOption, ofValues_sections h,
    Option.map_some]

/-- The description is all that the options and the command depend on. -/
theorem options_append_command_described (c : Config) :
    c.described.options ++ c.described.command = c.options ++ c.command := rfl

/-- **Arguments determine what they say.** For an image at a path where something is, take
configurations that name an image, have no separators in their keys and no command that begins with
a dash. Then each has an argument list, one reader gets the selector, the path and the
description back from every such list, and two lists are equal exactly when the descriptions are. -/
theorem arguments_determine (hpath : host.files.entry host.directory path = .ok entry) :
    (∀ c : Config, c.image ≠ "" → c.IsLegible → ∃ words, c.argumentsAt host path = .ok words ∧
      Reading.ofWords? words = some ⟨selector entry, path, c.described⟩) ∧
    ∀ c d : Config, c.image ≠ "" → d.image ≠ "" → c.IsLegible → d.IsLegible →
      (c.argumentsAt host path = d.argumentsAt host path ↔ c.described = d.described) := by
  have hwords : ∀ c : Config, c.image ≠ "" → c.argumentsAt host path =
      .ok (selector entry :: path :: (c.options ++ c.command)) := fun c hc =>
    argumentsAt_eq_ok_iff.mpr ⟨hc, entry, hpath, rfl⟩
  refine ⟨fun c hc hlegible => ⟨_, hwords c hc, ofWords?_arguments hlegible _ _⟩, ?_⟩
  intro c d hc hd hlc hld
  rw [hwords c hc, hwords d hd]
  constructor
  · intro h
    have hread := ofWords?_arguments hlc (selector entry) path
    rw [Except.ok.inj h, ofWords?_arguments hld] at hread
    exact (congrArg Reading.config (Option.some.inj hread)).symm
  · intro h
    rw [← options_append_command_described c, h, options_append_command_described d]

/-- A user that is named like an option, a target with a colon and a command that goes on like an
option are told from the option. -/
theorem arguments_determine_lookalikes :
    let host : Host := ⟨.empty, [], .ok "/"⟩
    let c : Config :=
      { image := "debian", user := "--chdir", bind := .ofList [("/srv", "/a:b")],
        command := ["sh", "--chdir", "/"] }
    let d : Config := { c with workingDirectory := "/", command := ["sh"] }
    host.files.entry host.directory "/" = .ok .directory ∧
      (c.image ≠ "" ∧ c.IsLegible) ∧ (d.image ≠ "" ∧ d.IsLegible) ∧
      (∃ words, c.argumentsAt host "/" = .ok words ∧
        Reading.ofWords? words = some ⟨"-D", "/", c.described⟩) ∧
      c.argumentsAt host "/" ≠ d.argumentsAt host "/" := by
  intro host c d
  have hentry : host.files.entry host.directory "/" = .ok .directory := by cbv
  have hc : c.image ≠ "" := by decide
  have hd : d.image ≠ "" := by decide
  have hlc : c.IsLegible := by constructor <;> decide
  have hld : d.IsLegible := by constructor <;> decide
  refine ⟨hentry, ⟨hc, hlc⟩, ⟨hd, hld⟩, (arguments_determine hentry).1 c hc hlc, ?_⟩
  intro h
  exact absurd (((arguments_determine hentry).2 c d hc hd hlc hld).mp h) (by decide)

/-- **A command is determined, unless it begins like an option.** If two configurations have one
argument list, then their commands are equal, or the longer of them begins with a word that is
written where an option begins. -/
theorem command_eq_or_opens (hc : c.argumentsAt host path = .ok words)
    (hd : d.argumentsAt host path = .ok words) :
    c.command = d.command ∨
      (d.command.length < c.command.length ∧ ∃ word ∈ c.command.head?, OpensOption word) ∨
      (c.command.length < d.command.length ∧ ∃ word ∈ d.command.head?, OpensOption word) := by
  obtain ⟨-, entry, hentry, rfl⟩ := argumentsAt_eq_ok_iff.mp hc
  obtain ⟨-, entry', hentry', hwords⟩ := argumentsAt_eq_ok_iff.mp hd
  have happend : c.options ++ c.command = d.options ++ d.command :=
    (List.cons.inj (List.cons.inj hwords).2).2
  rcases Nat.lt_trichotomy c.command.length d.command.length with hlt | heq | hlt
  · exact .inr (.inr ⟨hlt, opens_of_length_lt happend.symm hlt⟩)
  · exact .inl (List.append_inj_right' happend heq)
  · exact .inr (.inl ⟨hlt, opens_of_length_lt happend hlt⟩)

/-- A map's entry is written like the beginning of a command. -/
theorem command_eq_or_opens_bind :
    let host : Host := ⟨.empty, [], .ok "/"⟩
    let c : Config := { image := "debian", command := ["--bind", "/a:/b", "sh"] }
    let d : Config := { image := "debian", bind := .ofList [("/a", "/b")], command := ["sh"] }
    let words := ["-D", "/", "--bind", "/a:/b", "sh"]
    (c.argumentsAt host "/" = .ok words ∧ d.argumentsAt host "/" = .ok words) ∧
      (c.command = d.command ∨
        (d.command.length < c.command.length ∧ ∃ word ∈ c.command.head?, OpensOption word) ∨
        (c.command.length < d.command.length ∧ ∃ word ∈ d.command.head?, OpensOption word)) := by
  intro host c d words
  have hc : c.argumentsAt host "/" = .ok words := by cbv
  have hd : d.argumentsAt host "/" = .ok words := by cbv
  exact ⟨⟨hc, hd⟩, command_eq_or_opens hc hd⟩

/-- **A command can be taken for a flag.** Both configurations break no rule. -/
theorem command_taken_for_flag :
    let host : Host := ⟨.empty, [], .ok "/"⟩
    let c : Config := { image := "debian", command := ["--boot"] }
    let d : Config := { image := "debian", boot := true }
    (c.validate = .ok () ∧ d.validate = .ok ()) ∧
      c.argumentsAt host "/" = .ok ["-D", "/", "--boot"] ∧
      d.argumentsAt host "/" = .ok ["-D", "/", "--boot"] ∧ c.command ≠ d.command := by
  refine ⟨⟨?_, ?_⟩, ?_, ?_, ?_⟩
  · rfl
  · rfl
  · cbv
  · cbv
  · decide

end Config

end Capsule
