import Capsule.Bus.Client
import Capsule.Config.Validation
import Capsule.Programs

/-!
# Downloads are pulled as configured

A configuration names the kind of image and the way of checking it as texts. Its rules compare these
texts with lists of names, a request reads them as values, and the client writes the values as texts
again, for the kind as the name of a method. Each of these has a list of words of its own. If two of
them disagreed on a text, a launch could fail half-way, or fetch something else than was asked for.
`Config.pulled_as_configured` says that they agree on all texts.

## What a run is

The client is a function that is called for each run. That a pull is one run therefore shows in what
is left of the client: its state behind one call with these words. Words with a NUL character are
given to no program, so it is added that none is among them unless the configuration has put it
there.

## Main definitions

* `Download.words`: the client's arguments for a pull

## Main results

* `ImageKind.exists_name_eq_iff`, `VerifyMode.exists_name_eq_iff`: the rules know the names
* `Download.request_eq_ok_iff`: the requests of a download
* `Config.violation?_of_others`: what is left to be broken where all other rules hold
* `Config.pulled_as_configured`
-/

namespace Capsule

/-! ### Names -/

/-- A text is read as the kind that it names. -/
theorem ImageKind.ofName_eq_ok_iff {s : String} {k : ImageKind} :
    ofName s = .ok k ↔ k.name = s := by
  constructor
  · intro h
    unfold ofName at h
    split at h <;> cases h <;> rfl
  · rintro rfl
    cases k <;> rfl

/-- The kinds that a configuration may ask for are those that have a name. -/
theorem ImageKind.exists_name_eq_iff {s : String} :
    (∃ k : ImageKind, k.name = s) ↔ s ∈ Config.downloadTypes := by
  constructor
  · rintro ⟨k, rfl⟩
    cases k <;> decide
  · intro h
    simp only [Config.downloadTypes, List.mem_cons, List.not_mem_nil, or_false] at h
    rcases h with rfl | rfl
    · exact ⟨.raw, rfl⟩
    · exact ⟨.tar, rfl⟩

/-- A text is read as the mode that it names. -/
theorem VerifyMode.ofName_eq_ok_iff {s : String} {m : VerifyMode} :
    ofName s = .ok m ↔ m.name = s := by
  constructor
  · intro h
    unfold ofName at h
    split at h <;> cases h <;> rfl
  · rintro rfl
    cases m <;> rfl

/-- The ways of checking that a configuration may ask for are those that have a name. -/
theorem VerifyMode.exists_name_eq_iff {s : String} :
    (∃ m : VerifyMode, m.name = s) ↔ s ∈ Config.verifyModes := by
  constructor
  · rintro ⟨m, rfl⟩
    cases m <;> decide
  · intro h
    simp only [Config.verifyModes, List.mem_cons, List.not_mem_nil, or_false] at h
    rcases h with rfl | rfl | rfl
    · exact ⟨.no, rfl⟩
    · exact ⟨.checksum, rfl⟩
    · exact ⟨.signature, rfl⟩

/-! ### Requests -/

namespace Download

variable {d : Download} {name : String}

/-- A request asks for what the download says, under the name. -/
theorem request_eq_ok_iff {r : PullRequest} :
    d.request name = .ok r ↔ r.url = d.url ∧ r.name = name ∧ r.verify.name = d.verify ∧
      r.kind.name = d.kind ∧ r.force = d.force := by
  rw [← VerifyMode.ofName_eq_ok_iff, ← ImageKind.ofName_eq_ok_iff, request]
  cases hverify : VerifyMode.ofName d.verify with
  | error e => simp [bind, Except.bind]
  | ok verify =>
    cases hkind : ImageKind.ofName d.kind with
    | error e => simp [bind, Except.bind]
    | ok kind =>
      obtain ⟨url, name', verify', kind', force⟩ := r
      simp [bind, Except.bind, pure, Except.pure, eq_comm]

/-- The rules of a download are those under which there is a request, whatever the name. -/
theorem exists_request_iff :
    (∃ r, d.request name = .ok r) ↔ ∀ k ∈ Config.downloadChecks d, k.holds := by
  simp only [request_eq_ok_iff, Config.downloadChecks, List.forall_mem_cons, List.contains_iff_mem,
    ← ImageKind.exists_name_eq_iff, ← VerifyMode.exists_name_eq_iff]
  constructor
  · rintro ⟨r, -, -, hverify, hkind, -⟩
    exact ⟨⟨r.kind, hkind⟩, ⟨r.verify, hverify⟩, List.forall_mem_nil _⟩
  · rintro ⟨⟨kind, hkind⟩, ⟨verify, hverify⟩, -⟩
    exact ⟨⟨d.url, name, verify, kind, d.force⟩, rfl, rfl, hverify, hkind, rfl⟩

end Download

/-! ### Rules -/

namespace Config

variable {c : Config} {d : Download}

/-- Where all other rules hold, only those of the download are left to be broken. -/
theorem violation?_of_others (h : c.download = some d)
    (hothers : { c with download := none }.validate = .ok ()) :
    c.violation? = ((downloadChecks d).find? fun k => !k.holds).map (·.violation) := by
  have hchecks : c.checks = { c with download := none }.checks ++ downloadChecks d := by
    simp [checks, h, isDiscarding]
  have hvalid := validate_eq_ok_iff.mp hothers
  have hnone : { c with download := none }.checks.find? (fun k : Check => !k.holds) = none :=
    List.find?_eq_none.mpr fun k hk => by simp [hvalid k hk]
  rw [violation?, hchecks, List.find?_append, hnone, Option.none_or]

/-- The rule that is broken is the download's if there is no request for it. -/
theorem refuses_download_iff (h : c.download = some d)
    (hothers : { c with download := none }.validate = .ok ()) (name : String) :
    (∃ e, d.request name = .error e) ↔ ∃ v : Violation, c.validate = .error (.invalid v) ∧
      (v = ⟨.downloadKind, d.kind⟩ ∨ v = ⟨.downloadVerify, d.verify⟩) := by
  have hrequest : (∃ e, d.request name = .error e) ↔ ¬ ∀ k ∈ downloadChecks d, k.holds := by
    rw [← @Download.exists_request_iff d name]
    cases d.request name <;> simp
  rw [hrequest, validate, violation?_of_others h hothers]
  cases hfirst : (downloadChecks d).find? fun k : Check => !k.holds with
  | none => simpa [List.find?_eq_none] using hfirst
  | some k =>
    have hmem := List.mem_of_find?_eq_some hfirst
    have hbroken : k.holds = false := by simpa using List.find?_some hfirst
    have hviolation : k.violation = ⟨.downloadKind, d.kind⟩ ∨
        k.violation = ⟨.downloadVerify, d.verify⟩ := by
      rw [downloadChecks, List.mem_cons, List.mem_singleton] at hmem
      exact hmem.imp (congrArg _) (congrArg _)
    exact ⟨fun _ => ⟨k.violation, rfl, hviolation⟩, fun _ hall => by simp [hall k hmem] at hbroken⟩

/-- A valid download can be asked for. -/
theorem holds_of_validate (h : c.download = some d) (hvalid : c.validate = .ok ()) :
    ∀ k ∈ downloadChecks d, k.holds := fun k hk =>
  validate_eq_ok_iff.mp hvalid k (by simp [checks, h, hk])

end Config

/-! ### The run of the client -/

namespace Download

/-- The arguments with which the client pulls what a download says, under a name. -/
def words (d : Download) (method name : String) : List String :=
  ["--system", "--json=short", "call", "org.freedesktop.import1", "/org/freedesktop/import1",
    "org.freedesktop.import1.Manager", method, "sssb", d.url, name, d.verify,
    if d.force then "true" else "false"]

variable {d : Download} {name : String} {r : PullRequest}

/-- The method is called that the kind stands for, with what the download says. -/
theorem arguments_pull (h : d.request name = .ok r) : ∃ method,
    (d.kind = "tar" ∧ method = "PullTar" ∨ d.kind = "raw" ∧ method = "PullRaw") ∧
      (Method.pull r).arguments = d.words method name := by
  obtain ⟨hurl, hname, hverify, hkind, hforce⟩ := request_eq_ok_iff.mp h
  rw [Method.pull, hurl, hname, hverify, hforce, ← hkind]
  cases r.kind with
  | tar => exact ⟨"PullTar", .inl ⟨rfl, rfl⟩, rfl⟩
  | raw => exact ⟨"PullRaw", .inr ⟨rfl, rfl⟩, rfl⟩

/-- There is no NUL character in the client's arguments but those of the address and the name. -/
theorem start_words (h : d.request name = .ok r) (hurl : '\x00' ∉ d.url.toList)
    (hname : '\x00' ∉ name.toList) (host : Host) (search : SearchPath) (binary : String) :
    search.start host binary (Method.pull r).arguments = search.start host binary [] := by
  obtain ⟨hurl', hname', -⟩ := request_eq_ok_iff.mp h
  have hfree : ∀ a ∈ (Method.pull r).arguments, '\x00' ∉ a.toList := by
    obtain ⟨url, name', verify, kind, force⟩ := r
    subst hurl' hname'
    simp only [Method.pull, Method.ofImportManager, Method.arguments, List.cons_append,
      List.nil_append, List.forall_mem_cons]
    refine ⟨by decide, by decide, by decide, by decide, by decide, by decide, ?_, by decide, hurl,
      hname, ?_, ?_, List.forall_mem_nil _⟩
    · cases kind <;> decide
    · cases verify <;> decide
    · split <;> decide
  have hany : (Method.pull r).arguments.any (fun a => '\x00' ∈ a.toList) = false := by
    simpa using hfree
  simp only [SearchPath.start, List.any_cons, hany, List.any_nil]
  rfl

end Download

/-- **Downloads are pulled as configured.** Under a valid configuration there is a request for its
download, under any name, and the client pulls it in one run: with the method that stands for the
kind, and with the address, the name, the way of checking and the flag as they are. If the address
and the name have no NUL character, these arguments are no reason not to start it. Conversely, where
a configuration keeps all other rules, a request fails exactly if a rule of the download is
broken. -/
theorem Config.pulled_as_configured {c : Config} {d : Download} (h : c.download = some d) :
    (c.validate = .ok () → ∀ name, ∃ r method, d.request name = .ok r ∧
      (d.kind = "tar" ∧ method = "PullTar" ∨ d.kind = "raw" ∧ method = "PullRaw") ∧
      (∀ {σ : Type} (binary : String) (client : List String → σ → ClientRun × σ) (s : σ),
        let ran := client (d.words method name) s
        let outcome := ((Method.pull r).reply binary ran.1).bind Reply.started
        (Dialogue.pull binary r).run client s = (outcome, [.pull r], ran.2) ∧
          (Client.bus binary client).pull r s = (.after 0 outcome, ran.2)) ∧
      ('\x00' ∉ d.url.toList → '\x00' ∉ name.toList → ∀ host (search : SearchPath) binary,
        search.start host binary (d.words method name) = search.start host binary [])) ∧
    ({ c with download := none }.validate = .ok () → ∀ name,
      (∃ e, d.request name = .error e) ↔ ∃ v : Violation, c.validate = .error (.invalid v) ∧
        (v = ⟨.downloadKind, d.kind⟩ ∨ v = ⟨.downloadVerify, d.verify⟩)) := by
  refine ⟨fun hvalid name => ?_, fun hothers name => Config.refuses_download_iff h hothers name⟩
  obtain ⟨r, hr⟩ : ∃ r, d.request name = .ok r :=
    Download.exists_request_iff.mpr (Config.holds_of_validate h hvalid)
  obtain ⟨method, hmethod, hwords⟩ := Download.arguments_pull hr
  refine ⟨r, method, hr, hmethod, ?_, ?_⟩
  · rw [← hwords]
    exact fun binary client s => ⟨rfl, rfl⟩
  · rw [← hwords]
    exact fun hurl hname host search binary => Download.start_words hr hurl hname host search binary

/-- A client that keeps the arguments of its runs has had one run. -/
theorem Config.pulled_as_configured_raw :
    let d : Download :=
      { url := "https://example.com/d.raw", kind := "raw", force := true, verify := "signature" }
    let c : Config := { image := "debian", download := some d }
    let client (words : List String) (runs : List (List String)) : ClientRun × List (List String) :=
      (.finished true [] [], runs ++ [words])
    c.download = some d ∧ c.validate = .ok () ∧
      ∃ r, d.request "-d" = .ok r ∧ ((Client.bus "busctl" client).pull r []).2 =
        [["--system", "--json=short", "call", "org.freedesktop.import1",
          "/org/freedesktop/import1", "org.freedesktop.import1.Manager", "PullRaw", "sssb",
          "https://example.com/d.raw", "-d", "signature", "true"]] := by
  intro d c client
  have hvalid : c.validate = .ok () := by rfl
  obtain ⟨r, method, hr, hmethod, hrun, -⟩ :=
    (Config.pulled_as_configured (c := c) (d := d) rfl).1 hvalid "-d"
  obtain rfl : method = "PullRaw" := by
    rcases hmethod with ⟨hkind, -⟩ | ⟨-, hmethod⟩
    · exact absurd hkind (by decide)
    · exact hmethod
  refine ⟨rfl, hvalid, r, hr, ?_⟩
  rw [(hrun "busctl" client []).2]
  rfl

end Capsule
