import Capsule.Files

/-!
# Where a path leads

`Files.walk` follows names and gives up at the first problem. What it means that a path leads
somewhere is said here without the walk: a way through the files takes one name at a time, and
`Files.Way` has one rule for each kind of step. A path that leads nowhere is one without a way, and
so nothing is said here about which problem is met: neither of links that lead to nothing, nor of
links that lead to themselves, where each link that is followed takes one of those that are left.

`Host.LeadsTo` adds what is asked of the text of a path before the first step, and what stands at
the end of the way.

## Main definitions

* `Files.Way`: a way along names, with so many links that may be followed
* `Files.Stands`: what stands at a place
* `Host.LeadsTo`, `Host.LeadsSomewhere`: what a path leads to, and whether there is such a thing

## Main results

* `Files.walk_eq_ok_iff`: the walk finds the ways and nothing else
* `Host.entry_eq_ok_iff`: so a path leads to what is found there
-/

namespace Capsule

namespace Files

/-- A name that an entry of a directory can have. -/
structure IsName (name : String) : Prop where
  nonempty : name ≠ ""
  not_here : name ≠ "."
  not_up : name ≠ ".."
  short : name.utf8ByteSize ≤ nameLimit

/-- A way from a place along names to another place, on which so many links may be followed. -/
inductive Way (files : Files) : Nat → Place → List String → Place → Prop
  | arrived {links : Nat} {here : Place} : Way files links here [] here
  | stay {links : Nat} {here there : Place} {name : String} {names : List String}
      (directory : files.isDirectory here = true) (no_name : name = "" ∨ name = ".")
      (way : Way files links here names there) : Way files links here (name :: names) there
  | up {links : Nat} {here there : Place} {names : List String}
      (directory : files.isDirectory here = true)
      (way : Way files links here.tail names there) : Way files links here (".." :: names) there
  | enter {links : Nat} {here there : Place} {name : String} {names : List String} {entry : Entry}
      (directory : files.isDirectory here = true) (is_name : IsName name)
      (found : files.at? (name :: here) = some entry) (no_link : ∀ target, entry ≠ .link target)
      (way : Way files links (name :: here) names there) :
      Way files links here (name :: names) there
  /-- The names of the link's target come in front of those that are left. -/
  | follow {links : Nat} {here there : Place} {name target : String} {names : List String}
      (directory : files.isDirectory here = true) (is_name : IsName name)
      (found : files.at? (name :: here) = some (.link target))
      (way : Way files links (if Path.isAbsolute target then [] else here)
        (Path.names target ++ names) there) :
      Way files (links + 1) here (name :: names) there

/-- What stands at a place. -/
inductive Stands (files : Files) (place : Place) : Entry → Prop
  | directory (is_directory : files.isDirectory place = true) : Stands files place .directory
  | other {entry : Entry} (not_directory : files.isDirectory place = false)
      (found : files.at? place = some entry) : Stands files place entry

variable {files : Files}

/-- What becomes of a walk at a name depends on what has that name. -/
theorem walk_name {links : Nat} {here : Place} {name : String} {names : List String}
    (hdirectory : files.isDirectory here = true) (hname : IsName name) :
    files.walk links here (name :: names) =
      match files.at? (name :: here), links with
      | none, _ => .error .notFound
      | some (.link _), 0 => .error .tooManyLinks
      | some (.link target), links + 1 =>
        files.walk links (if Path.isAbsolute target then [] else here) (Path.names target ++ names)
      | some _, links => files.walk links (name :: here) names := by
  have hplain : ¬ (name = "" ∨ name = ".") := not_or.mpr ⟨hname.nonempty, hname.not_here⟩
  rw [walk, if_neg (by simp [hdirectory]), if_neg hplain, if_neg hname.not_up,
    if_neg (Nat.not_lt.mpr hname.short)]
  cases files.at? (name :: here) with
  | none => rfl
  | some entry => cases entry <;> cases links <;> rfl

/-- **A walk finds the ways and nothing else.** -/
theorem walk_eq_ok_iff {links : Nat} {here there : Place} {names : List String} :
    files.walk links here names = .ok there ↔ Way files links here names there := by
  constructor
  · intro h
    fun_induction walk files links here names with
    | case1 links here =>
      cases h
      exact .arrived
    | case2 | case5 | case6 | case7 => cases h
    | case3 links here name rest hdirectory hname ih =>
      exact .stay (by simpa using hdirectory) hname (ih h)
    | case4 links here rest hdirectory hname ih =>
      exact .up (by simpa using hdirectory) (ih h)
    | case8 here name rest hdirectory hplain hup hshort target hfound links ih =>
      obtain ⟨hempty, hhere⟩ := not_or.mp hplain
      exact .follow (by simpa using hdirectory) ⟨hempty, hhere, hup, Nat.le_of_not_lt hshort⟩
        hfound (ih h)
    | case9 links here name rest hdirectory hplain hup hshort entry hno_link hfound ih =>
      obtain ⟨hempty, hhere⟩ := not_or.mp hplain
      exact .enter (by simpa using hdirectory) ⟨hempty, hhere, hup, Nat.le_of_not_lt hshort⟩
        hfound hno_link (ih h)
  · intro h
    induction h with
    | arrived => rw [walk]
    | stay directory no_name way ih => simpa [walk, directory, no_name] using ih
    | up directory way ih => simpa [walk, directory] using ih
    | @enter links here there name names entry directory is_name found no_link way ih =>
      rw [walk_name directory is_name, found]
      cases entry with
      | link target => exact absurd rfl (no_link target)
      | _ => exact ih
    | follow directory is_name found way ih =>
      rw [walk_name directory is_name, found]
      exact ih

/-- Only one thing stands at a place. -/
theorem stands_iff {place : Place} {entry : Entry} :
    Stands files place entry ↔
      (if files.isDirectory place then some .directory else files.at? place) = some entry := by
  constructor
  · rintro (is_directory | ⟨not_directory, found⟩)
    · rw [if_pos is_directory]
    · rw [if_neg (by simp [not_directory]), found]
  · intro h
    split at h
    · rename_i hdirectory
      cases h
      exact .directory hdirectory
    · rename_i hdirectory
      exact .other (by simpa using hdirectory) h

end Files

namespace Host

/-- Where a path starts. -/
def start (host : Host) (path : String) : Place :=
  if Path.isAbsolute path then [] else host.directory

/-- What a path leads to on a host. -/
structure LeadsTo (host : Host) (path : String) (entry : Entry) : Prop where
  no_nul : '\x00' ∉ path.toList
  nonempty : path ≠ ""
  short : path.utf8ByteSize < Files.pathLimit
  way : ∃ place, host.files.Way Files.linkLimit (host.start path) (Path.names path) place ∧
    host.files.Stands place entry

/-- A path leads to something. -/
def LeadsSomewhere (host : Host) (path : String) : Prop := ∃ entry, host.LeadsTo path entry

variable {host : Host} {path : String}

/-- The place of a path is where a way along its names ends. -/
theorem place_eq_ok_iff {place : Place} :
    host.files.place host.directory path = .ok place ↔
      '\x00' ∉ path.toList ∧ path ≠ "" ∧ path.utf8ByteSize < Files.pathLimit ∧
        host.files.Way Files.linkLimit (host.start path) (Path.names path) place := by
  rw [← Files.walk_eq_ok_iff, Files.place]
  by_cases hnul : '\x00' ∈ path.toList
  · simp [hnul]
  · by_cases hempty : path = ""
    · simp [hempty]
    · rw [if_neg hnul, if_neg (by simpa using hempty)]
      split
      · rename_i hlong
        simp [Nat.not_lt.mpr hlong]
      · rename_i hshort
        simp only [hnul, hempty, Nat.lt_of_not_le hshort, start, not_false_eq_true, ne_eq,
          true_and]

/-- **A path leads to what is found there.** -/
theorem entry_eq_ok_iff {entry : Entry} :
    host.files.entry host.directory path = .ok entry ↔ host.LeadsTo path entry := by
  have hentry : host.files.entry host.directory path = .ok entry ↔
      ∃ place, host.files.place host.directory path = .ok place ∧
        host.files.Stands place entry := by
    simp only [Files.stands_iff]
    rw [Files.entry]
    cases host.files.place host.directory path with
    | error problem => simp [bind, Except.bind]
    | ok place =>
      simp only [bind, Except.bind, Except.ok.injEq, exists_eq_left']
      split
      · simp
      · cases host.files.at? place <;> simp
  rw [hentry]
  constructor
  · rintro ⟨place, hplace, hstands⟩
    obtain ⟨hnul, hempty, hshort, hway⟩ := place_eq_ok_iff.mp hplace
    exact ⟨hnul, hempty, hshort, place, hway, hstands⟩
  · rintro ⟨hnul, hempty, hshort, place, hway, hstands⟩
    exact ⟨place, place_eq_ok_iff.mpr ⟨hnul, hempty, hshort, hway⟩, hstands⟩

/-- A path leads somewhere exactly if something is found there. -/
theorem leads_iff :
    host.files.leads host.directory path = true ↔ host.LeadsSomewhere path := by
  simp only [LeadsSomewhere, ← entry_eq_ok_iff]
  rw [Files.leads]
  cases host.files.entry host.directory path <;> simp [Except.toBool]

/-- Otherwise a problem is met. -/
theorem exists_problem_iff :
    (∃ problem, host.files.entry host.directory path = .error problem) ↔
      ¬ host.LeadsSomewhere path := by
  simp only [LeadsSomewhere, ← entry_eq_ok_iff]
  cases host.files.entry host.directory path <;> simp

end Host

end Capsule
