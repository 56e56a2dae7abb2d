import Capsule.Bus.Script
import Capsule.Proofs.Bus.Descriptors
import Capsule.Proofs.Files
import Capsule.Proofs.Preparation.Ending
import Mathlib

/-!
# Finding an image and naming it

A configuration is resolved first, and its arguments are made later, from the path that was kept.
Each of the two looks at the files for itself, and what they see must agree: what was found on disk
is there for the arguments, whatever links lead to it, while a path that the bus has reported may
lead nowhere, and that is noticed only by the arguments.

What resolving does is stated once, as the contract `Config.FindsImage` between a configuration and
what came of resolving it. It is stated with `Host.LeadsTo` and not with the walk through the files,
and with the bag that the bus has answered and not with the reader of that bag.

## Main definitions

* `Image.candidate`: the path that a reference is tried as
* `Config.RendersAt`: the arguments of a configuration go by what its path leads to
* `Config.FindsImage`: what comes of resolving a configuration

## Main results

* `Config.resolve_findsImage`: that is what comes of it
-/

namespace Capsule

variable {σ : Type}

/-- The path that a reference is tried as: itself if it is absolute, and otherwise what it is in a
directory. -/
def Image.candidate (base reference : String) : String :=
  if Path.isAbsolute reference then reference else Path.join base reference

theorem Image.join_eq_candidate (base reference : String) :
    Path.join base reference = candidate base reference := by
  rw [candidate, Path.join]
  split <;> simp_all

namespace Config

/-- A configuration names its image by a path. A directory is introduced by `-D` and anything else
by `-i`; a path that leads nowhere is reported. -/
structure RendersAt (c : Config) (host : Host) (path : String) : Prop where
  kept : c.imagePath = some path
  leads (entry : Entry) : host.LeadsTo path entry → c.arguments host =
    .ok ((if entry = .directory then "-D" else "-i") :: path :: (c.options ++ c.command))
  fails : (∃ problem, c.arguments host = .error (.file path problem)) ↔
    ¬ host.LeadsSomewhere path

theorem selector_eq (entry : Entry) :
    selector entry = if entry = .directory then "-D" else "-i" := by
  cases entry <;> simp [selector]

theorem rendersAt {c : Config} (himage : c.image ≠ "") (host : Host) {path : String}
    (hpath : c.imagePath = some path) : c.RendersAt host path := by
  have hat : c.arguments host = c.argumentsAt host path := by
    rw [arguments, hpath]
  have hnamed : ¬ c.image.isEmpty = true := by simpa using himage
  refine ⟨hpath, fun entry hleads => ?_, ?_⟩
  · rw [hat, argumentsAt, if_neg hnamed, Host.entry_eq_ok_iff.mpr hleads, ← selector_eq]
    rfl
  · rw [← Host.exists_problem_iff, hat, argumentsAt, if_neg hnamed]
    cases host.files.entry host.directory path <;> simp

/-- What comes of resolving a configuration in a working directory, on a bus that keeps its
calls. -/
structure FindsImage (c : Config) (host : Host) (base : String) (bus : Bus σ) (s : σ)
    (calls : List Call) (found : Config × Answer String × σ × List Call) : Prop where
  /-- What the reference leads to on disk is found at once, and no call is made. -/
  on_disk : host.LeadsSomewhere (Image.candidate base c.image) →
    found.2 = (.after 0 (.ok (Image.candidate base c.image)), s, calls)
  /-- Otherwise the bus is asked once, for the reference as it stands. -/
  asks : ¬ host.LeadsSomewhere (Image.candidate base c.image) →
    found.2.2 = ((bus.describeImage c.image s).2, calls ++ [.describeImage c.image])
  /-- A call that is never answered is waited for. -/
  waits : ¬ host.LeadsSomewhere (Image.candidate base c.image) →
    (bus.describeImage c.image s).1 = .never → found.2.1 = .never
  /-- Whatever goes wrong with the call, there is no such image. -/
  missing (delay : Nat) (e : Error) :
    ¬ host.LeadsSomewhere (Image.candidate base c.image) →
    (bus.describeImage c.image s).1 = .after delay (.error e) →
    found.2.1 = .after delay (.error (.missing .image c.image))
  /-- Of a bag that does not describe an image the first thing that it lacks is reported. -/
  malformed (delay : Nat) (bag : PropertyBag) (before : List (String × Kind))
    (want : String × Kind) (behind : List (String × Kind)) :
    ¬ host.LeadsSomewhere (Image.candidate base c.image) →
    (bus.describeImage c.image s).1 = .after delay (.ok bag) →
    ImageDescriptor.wanted = before ++ want :: behind → (∀ w ∈ before, bag.Holds w) →
    ¬ bag.Holds want → found.2.1 = .after delay (.error (.property want.1 want.2.name))
  /-- From any other bag the path is taken, which need not lead anywhere. -/
  reported (delay : Nat) (bag : PropertyBag) :
    ¬ host.LeadsSomewhere (Image.candidate base c.image) →
    (bus.describeImage c.image s).1 = .after delay (.ok bag) →
    (∀ want ∈ ImageDescriptor.wanted, bag.Holds want) →
    ∃ path, bag.get? "Path" = some (.text path) ∧ found.2.1 = .after delay (.ok path)
  /-- The path is kept, and the arguments go by it. -/
  keeps (delay : Nat) (path : String) : found.2.1 = .after delay (.ok path) →
    found.1 = { c with imagePath := some path } ∧ found.1.RendersAt host path
  /-- Where no path is found, the configuration stays as it was. -/
  unchanged : (∀ delay path, found.2.1 ≠ .after delay (.ok path)) → found.1 = c

/-- Where no path is found, the configuration stays as it was. -/
theorem resolve_unchanged {c : Config} {host : Host} {bus : Bus σ} {s : σ}
    (h : ∀ delay path, (c.resolve host bus s).2.1 ≠ .after delay (.ok path)) :
    (c.resolve host bus s).1 = c := by
  by_cases himage : c.image = ""
  · rw [resolve, if_pos (by simp [himage])]
  · rcases hdisk : Image.onDisk host c.image with e | _ | path
    · rw [resolve_of_error bus s himage hdisk]
    · rw [resolve_of_missing himage hdisk rfl] at h ⊢
      split
      · rename_i delay path hanswer
        simp only [hanswer] at h
        exact absurd rfl (h delay path)
      · rfl
    · rw [resolve_of_onDisk bus s himage hdisk] at h
      exact absurd rfl (h 0 path)

/-- What the bus has answered is made a path of, where nothing is on disk. -/
theorem resolve_snd_of_missing {c : Config} {host : Host} (bus : Bus σ) (s : σ)
    (himage : c.image ≠ "") (h : Image.onDisk host c.image = .ok none) :
    (c.resolve host bus s).2 =
      ((bus.describeImage c.image s).1.map (Image.ofAnswer c.image),
        (bus.describeImage c.image s).2) := by
  rw [resolve_of_missing himage h rfl]
  split
  · rename_i hanswer
    rw [hanswer]
  · rfl

theorem findsImage_resolve {c : Config} (himage : c.image ≠ "") {host : Host} {base : String}
    (hbase : host.directoryPath = .ok base) (bus : Bus σ) (s : σ) (calls : List Call) :
    c.FindsImage host base bus s calls (c.resolve host bus.recorded (s, calls)) := by
  have hmissing : ¬ host.LeadsSomewhere (Image.candidate base c.image) →
      (c.resolve host bus.recorded (s, calls)).2 =
        ((bus.describeImage c.image s).1.map (Image.ofAnswer c.image),
          (bus.describeImage c.image s).2, calls ++ [.describeImage c.image]) := by
    intro hnothing
    rw [← Host.leads_iff] at hnothing
    have hdisk : Image.onDisk host c.image = .ok none := by
      rw [Image.onDisk_of_ok hbase, Image.join_eq_candidate, if_neg hnothing]
    exact resolve_snd_of_missing bus.recorded (s, calls) himage hdisk
  refine
    { on_disk := fun hleads => ?on_disk
      asks := fun hnothing => by rw [hmissing hnothing]
      waits := fun hnothing hnever => by rw [hmissing hnothing, hnever]; rfl
      missing := fun delay e hnothing herror => by rw [hmissing hnothing, herror]; rfl
      malformed := fun delay bag before want behind hnothing hbag hwanted hbefore hlacks =>
        ?malformed
      reported := fun delay bag hnothing hbag hholds => ?reported
      keeps := fun delay path hfound => ?keeps
      unchanged := resolve_unchanged }
  case on_disk =>
    have hdisk : Image.onDisk host c.image = .ok (some (Image.candidate base c.image)) := by
      rw [Image.onDisk_of_ok hbase, Image.join_eq_candidate, if_pos (Host.leads_iff.mpr hleads)]
    rw [resolve_of_onDisk bus.recorded (s, calls) himage hdisk]
  case malformed =>
    have herror : ImageDescriptor.ofBag bag = .error (.property want.1 want.2.name) :=
      ImageDescriptor.ofBag_eq_error_iff.mpr ⟨before, want, behind, hwanted, hbefore, hlacks, rfl⟩
    rw [hmissing hnothing, hbag]
    simp only [Answer.map, Image.ofAnswer, herror, Except.map]
  case reported =>
    cases hread : ImageDescriptor.ofBag bag with
    | error e =>
      obtain ⟨before, want, behind, hwanted, -, hlacks, -⟩ :=
        ImageDescriptor.ofBag_eq_error_iff.mp hread
      exact absurd (hholds want (by simp [hwanted])) hlacks
    | ok image =>
      refine ⟨image.path, ?_, ?_⟩
      · exact ImageDescriptor.ofBag_eq_ok_iff.mp hread ("Path", .text image.path)
          (by simp [ImageDescriptor.properties])
      · rw [hmissing hnothing, hbag]
        simp only [Answer.map, Image.ofAnswer, hread, Except.map]
  case keeps =>
    have hresolve : c.resolve host bus.recorded (s, calls) =
        ((c.resolve host bus.recorded (s, calls)).1, .after delay (.ok path), _) :=
      Prod.ext rfl (Prod.ext hfound rfl)
    obtain ⟨-, hconfig⟩ := found_of_resolve hresolve
    rw [hconfig]
    have hnamed : Config.image { c with imagePath := some path } ≠ "" := himage
    exact ⟨rfl, rendersAt hnamed host rfl⟩

/-- **A configuration that names an image is resolved by what its reference leads to**, or, if that
is nothing, by one call of the bus; and its arguments go by the path that was found. Where the path
of the working directory cannot be had, that is reported, whatever the reference, and nothing is
done. -/
theorem resolve_findsImage {c : Config} (himage : c.image ≠ "") (host : Host) (bus : Bus σ)
    (s : σ) (calls : List Call) :
    let found := c.resolve host bus.recorded (s, calls)
    (∀ base, host.directoryPath = .ok base → c.FindsImage host base bus s calls found) ∧
      ∀ problem, host.directoryPath = .error problem →
        found = (c, .after 0 (.error (.file "." problem)), s, calls) := by
  refine ⟨fun base hbase => findsImage_resolve himage hbase bus s calls, fun problem hproblem => ?_⟩
  exact resolve_of_error bus.recorded (s, calls) himage
    (Image.onDisk_eq_error_iff.mpr ⟨problem, hproblem, rfl⟩)

/-- A host with a directory, a link to it, and a link to itself. -/
def linkedHost : Host where
  files := (((Files.empty.insert ["work"] .directory).insert ["rootfs", "work"] .directory).insert
    ["tree", "work"] (.link "rootfs")).insert ["loop", "work"] (.link "loop")
  directory := ["work"]
  directoryPath := .ok "/work"

/-- A link to a directory is found on disk and introduced as one, and it is the link that is named.
A link to itself leads nowhere, and the bus is asked, which here knows too little of it. Without the
path of the working directory not even an absolute path is found. -/
theorem resolve_linked :
    let bag : PropertyBag := .ofList [("CreationTimestamp", .uint64 1), ("Limit", .text "no")]
    let script : Script := { images := .ofList [("loop", .after 5 (.ok bag))] }
    let tree : Config := { image := "tree" }
    let looping : Config := { image := "loop", imagePath := some "/old" }
    let found := tree.resolve linkedHost Script.bus.recorded (script, [])
    let lost := looping.resolve linkedHost Script.bus.recorded (script, [])
    let removed : Host := { linkedHost with directoryPath := .error .notFound }
    let absolute : Config := { image := "/work/tree" }
    found.2.2.2 = [] ∧ found.1.arguments linkedHost = .ok ["-D", "/work/tree"] ∧
      lost.2.2.2 = [.describeImage "loop"] ∧
      lost.2.1 = .after 5 (.error (.property "Limit" "u64")) ∧ lost.1 = looping ∧
      absolute.resolve removed Script.bus.recorded (script, []) =
        (absolute, .after 0 (.error (.file "." .notFound)), script, []) := by
  intro bag script tree looping found lost removed absolute
  have hfound := (resolve_findsImage (c := tree) (by decide) linkedHost Script.bus script []).1
    "/work" rfl
  have hlost := (resolve_findsImage (c := looping) (by decide) linkedHost Script.bus script []).1
    "/work" rfl
  have htree : linkedHost.LeadsTo "/work/tree" .directory := Host.entry_eq_ok_iff.mp (by cbv)
  have hpath : Image.candidate "/work" tree.image = "/work/tree" := by cbv
  have hdisk := hfound.on_disk ⟨.directory, by rwa [hpath]⟩
  rw [hpath] at hdisk
  obtain ⟨hstored, hrenders⟩ := hfound.keeps 0 "/work/tree" (congrArg Prod.fst hdisk)
  have hloop : ¬ linkedHost.LeadsSomewhere (Image.candidate "/work" looping.image) := by
    rw [← Host.leads_iff]
    have hnowhere : linkedHost.files.leads linkedHost.directory
        (Image.candidate "/work" looping.image) = false := by cbv
    simp [hnowhere]
  have hlimit := hlost.malformed 5 bag [("CreationTimestamp", .uint64)] ("Limit", .uint64) _ hloop
    rfl rfl (by
      rintro w hw
      cases List.mem_singleton.mp hw
      exact ⟨.uint64 1, by decide, rfl⟩) (by
      rintro ⟨value, hvalue, hkind⟩
      cases hvalue
      cases hkind)
  refine ⟨?_, ?_, ?_, hlimit, ?_, ?_⟩
  · exact congrArg (fun r => r.2.2) hdisk
  · rw [hrenders.leads .directory htree, hstored]
    rfl
  · exact congrArg Prod.snd (hlost.asks hloop)
  · exact hlost.unchanged fun delay path h => by
      rw [hlimit] at h
      cases h
  · exact (resolve_findsImage (by decide) removed Script.bus script []).2 .notFound rfl

end Config

end Capsule
