import Capsule.Proofs.Json.Naturals
import Capsule.Proofs.Poll.Lookup
import Capsule.Proofs.Record
import Capsule.Proofs.World.Verdict
import Capsule.World.Commands

/-!
# How long a lookup may take

How long to wait for a machine is a number of seconds that is read as a word of sixty-four bits,
from a file of settings or from the command line. Where it is used it is added to the time of the
clock, and the clock shows times only up to a second that a signed word holds. Nothing stands
between the two: neither reader knows of that limit, and the sum is not looked at before it is
needed.

So one half of the numbers that can be given are times to wait, as long as the clock leaves room for
them, and the other half are not. With a number that the clock leaves room for a lookup comes to a
machine or to one of two errors, unless the bus never answers a question that is waited for; with
any other it is over before anything is asked, with neither. `World.describe_aborts_iff` draws the
line, for the lookup itself and for the two commands that make one. Where it lies depends on the
clock, which has run since the system was started.

## Main definitions

* `Settings.Holds`, `Command.Takes`: the numbers of seconds that can be given
* `Clock.Allows`: the times that are needed can be shown
* `Lookup.Returns`: a machine, or an error of one of two kinds

## Main results

* `Settings.holds_iff`, `Command.takes_iff`: every word can be given, in either place
* `Machine.returns_of_allows`, `Machine.describe_of_not_allows`: what a lookup comes to
* `World.describe_aborts_iff`: all of these together
-/

namespace Capsule

/-! ### Words -/

theorem Decode.lt_of_word {d : Doc} {n : Nat} (h : Decode.word d = .ok n) : n < Nat.pow 2 64 := by
  unfold Decode.word at h
  split at h
  · split at h
    · rename_i hrange
      cases h
      have hlt := hrange.2
      simp only [Nat.pow_eq] at hlt
      omega
    · cases h
  · exact absurd h Decoded.mismatch_ne_ok

theorem Codec.word_ofDoc {n : Nat} (h : n < Nat.pow 2 64) :
    Codec.word.ofDoc (.number (.ok (.integer n))) = .ok n := by
  have hrange : 0 ≤ (n : Int) ∧ (n : Int) < Nat.pow 2 64 :=
    ⟨Int.natCast_nonneg n, Int.ofNat_lt.mpr h⟩
  have hword : Codec.word.ofDoc = Decode.word := rfl
  rw [hword, Decode.word, if_pos hrange, Int.toNat_natCast]

theorem Yaml.Core.lt_of_natural? {limit n : Nat} {cs : List Char}
    (h : Yaml.Core.natural? limit cs = some n) : n < limit := by
  unfold Yaml.Core.natural? at h
  split at h
  · cases h
  · obtain ⟨_, -, h⟩ := Option.bind_eq_some_iff.mp h
    obtain ⟨hlt, h⟩ := Option.ite_none_right_eq_some.mp h
    cases h
    exact hlt

theorem Yaml.Document.lt_of_word? {y : Yaml.Document} {node : Yaml.Node Nat} {n : Nat}
    (h : y.word? node = some n) : n < Nat.pow 2 64 := by
  obtain ⟨_, -, h⟩ := Option.bind_eq_some_iff.mp h
  split at h
  · exact Yaml.Core.lt_of_natural? (Option.ite_none_right_eq_some.mp h).2
  · cases h

/-! ### What settings hold -/

theorem Field.ofDoc_of {σ α : Type} {name : String} {codec : Codec α} {part : Part σ α} {d : Doc}
    {a : α} (h : codec.ofDoc d = .ok a) (s : σ) :
    (Field.of name codec part).ofDoc d s = .ok (part.set a s) := by
  show (codec.ofDoc d).map _ = _
  rw [h]
  rfl

/-- What a file puts into a part of a record has been read by the codec of its field; or the part is
as it is by default. -/
theorem Record.Owns.get_ofText {σ α : Type} {r : Record σ} {name : String} {codec : Codec α}
    {part : Part σ α} (ho : r.Owns name codec part) {format : Format} {text : List Char} {s : σ}
    (h : r.ofText format text = .ok s) :
    part.get s = part.get r.default ∨ (∃ d, codec.ofDoc d = .ok (part.get s)) ∨
      ∃ y n, codec.ofNode? y n = some (part.get s) := by
  cases format with
  | json =>
    cases hjson : r.ofJson text with
    | error p =>
      rw [ofText, hjson] at h
      cases h
    | ok s' =>
      rw [ofText, hjson] at h
      cases h
      have hdoc := ofDoc_of_ofJson hjson
      by_cases hgives : ∃ d, r.Gives name d (Doc.read text).1
      · obtain ⟨d, hd⟩ := hgives
        obtain ⟨a, ha, rfl⟩ := ho.get_ofDoc hdoc hd
        exact .inr (.inl ⟨d, ha⟩)
      · exact .inl (ho.get_ofDoc_of_not_gives hdoc (not_exists.mp hgives))
  | yaml =>
    cases hyaml : r.ofYaml? text with
    | none =>
      rw [ofText, hyaml] at h
      cases h
    | some s' =>
      rw [ofText, hyaml] at h
      cases h
      obtain ⟨y, hy, -⟩ := Option.bind_eq_some_iff.mp hyaml
      by_cases hgives : ∃ n, GivesNode name y n
      · obtain ⟨n, hn⟩ := hgives
        obtain ⟨a, ha, rfl⟩ := ho.get_ofYaml? hy hyaml hn
        exact .inr (.inr ⟨y, n, ha⟩)
      · exact .inl (ho.get_ofYaml?_of_not_gives hy hyaml (not_exists.mp hgives))

namespace Settings

/-- A file of settings can hold a number of seconds to wait. -/
def Holds (seconds : Nat) : Prop :=
  ∃ format text settings, record.ofText format text = .ok settings ∧
    settings.describeTimeout = seconds

/-- The part of settings that says how long to wait. -/
def waiting : Part Settings Nat :=
  ⟨(·.describeTimeout), fun v s => { s with describeTimeout := v }⟩

theorem owns_waiting : record.Owns "describe_timeout_secs" .word waiting where
  names := by decide
  get_set _ _ := rfl
  keeps := by
    refine ⟨[], _, rfl, ?_⟩
    iterate 2 refine List.forall_mem_cons.mpr ⟨Field.keeps_of fun _ _ => rfl, ?_⟩
    exact List.forall_mem_nil _

/-- A text that gives a word and nothing else is read. -/
theorem exists_ofText {seconds : Nat} (h : seconds < Nat.pow 2 64) :
    ∃ text, record.ofText .json text = .ok { describeTimeout := seconds } := by
  let member : String × List Char := ("describe_timeout_secs", Json.natChars seconds)
  have hvalue : ∀ m ∈ [member], Json.IsValue m.2 :=
    List.forall_mem_singleton.mpr (Numeral.isValue_natChars seconds)
  obtain ⟨text, htext⟩ := Json.exists_objectText hvalue
  have hread := Doc.read_objectText htext
  rw [List.map_singleton, (Doc.reads_natChars h).ofText_eq] at hread
  have hfield : (Field.of "describe_timeout_secs" .word waiting).ofDoc
      (.number (.ok (.integer seconds))) record.default =
        .ok (waiting.set seconds record.default) :=
    Field.ofDoc_of (Codec.word_ofDoc h) _
  have hdoc : record.ofDoc (.object [(.text (.ok "describe_timeout_secs"),
      .number (.ok (.integer seconds)))] .closed) = .ok { describeTimeout := seconds } := by
    rw [Record.ofDoc, owns_waiting.ofMembers_cons, if_neg List.not_mem_nil, hfield]
    rfl
  refine ⟨text, ?_⟩
  rw [Record.ofText, Record.ofJson, Decode.whole, hread]
  show Except.mapError _ (record.ofDoc _ >>= _) = _
  rw [hdoc]
  rfl

/-- **A file of settings can hold every word**, and nothing else. -/
theorem holds_iff {seconds : Nat} : Holds seconds ↔ seconds < Nat.pow 2 64 := by
  constructor
  · rintro ⟨format, text, settings, hread, rfl⟩
    rcases owns_waiting.get_ofText hread with hdefault | ⟨d, hd⟩ | ⟨y, n, hn⟩
    · exact Nat.lt_of_le_of_lt (Nat.le_of_eq hdefault) (by decide)
    · exact Decode.lt_of_word hd
    · exact Yaml.Document.lt_of_word? hn
  · intro hlt
    obtain ⟨text, hread⟩ := exists_ofText hlt
    exact ⟨.json, text, _, hread, rfl⟩

end Settings

/-! ### What a command line takes -/

/-- A word that begins with no hyphen is the value of the option before it. -/
theorem Reader.take_value {r : Reader} {o : Choice} {value : String} (hr : r.pending = .choice o)
    (hopen : r.operandsOnly = false) (hvalue : value.toList.head? ≠ some '-') (form : Form) :
    r.take form value = .ok { r with pending := .valued o value } := by
  unfold take
  simp only [hopen, hr]
  split
  · contradiction
  · split
    · simp_all
    · simp_all
    · simp_all
    · rfl

theorem Form.read_cons {form : Form} {r r' : Reader} {word : String}
    (hcommand : r.isCommand form word = false) (htake : r.take form word = .ok r')
    (words : List String) : form.read r (word :: words) = form.read r' words := by
  rw [read, hcommand, htake]
  rfl

namespace Command

/-- A command line can give a number of seconds to wait. -/
def Takes (seconds : Nat) : Prop :=
  ∃ environment words settings machine json,
    Invocation.read environment words = .ok ⟨settings, .describe machine (some seconds) json⟩

theorem lt_of_ofGiven {name machine : String} {g : Given} {seconds : Nat} {json : Bool}
    (h : ofGiven name g = .describe machine (some seconds) json) : seconds < Nat.pow 2 64 := by
  unfold ofGiven at h
  split at h
  case h_3 =>
    obtain ⟨-, htimeout, -⟩ := Command.describe.inj h
    obtain ⟨text, -, hread⟩ := Option.bind_eq_some_iff.mp htimeout
    exact lt_of_readWord? hread
  all_goals cases h

theorem exists_given_of_read {environment : Option String} {words : List String} {i : Invocation}
    (h : Invocation.read environment words = .ok i) : ∃ name g, i.command = ofGiven name g := by
  obtain ⟨⟨r, command?⟩, -, h⟩ := Except.bind_eq_ok_iff.mp h
  dsimp only at h
  split at h
  · obtain ⟨_, -, h⟩ := Except.bind_eq_ok_iff.mp h
    cases h
  · cases h
  · obtain ⟨behind, -, h⟩ := Except.bind_eq_ok_iff.mp h
    obtain ⟨before, -, h⟩ := Except.bind_eq_ok_iff.mp h
    cases h
    exact ⟨_, behind, rfl⟩

/-- The reader behind a machine and the option for seconds, with something left to look at. -/
def awaiting (pending : Pending) : Reader := { given := { operands := ["web"] }, pending }

theorem settle_timeout {value : String} {seconds : Nat} (hread : readWord? value = some seconds) :
    (awaiting (.valued ⟨"timeout", some .word⟩ value)).settle =
      .ok { given := { options := [("timeout", value)], operands := ["web"] } } := by
  have hcheck : ValueKind.word.check value = .ok () := by
    rw [ValueKind.check, hread]
    rfl
  show (ValueKind.word.check value >>= fun _ => _) >>= _ = _
  rw [hcheck]
  rfl

theorem readBehind_timeout {value : String} {seconds : Nat}
    (hread : readWord? value = some seconds) (hvalue : value.toList.head? ≠ some '-') :
    Invocation.readBehind none "describe" ["web", "--timeout", value] =
      .ok { options := [("timeout", value)], operands := ["web"] } := by
  have hoption : Reader.take (form "describe") { pending := .operand .text "web" } "--timeout" =
      .ok (awaiting (.choice ⟨"timeout", some .word⟩)) := rfl
  have hwords : (form "describe").read {} ["web", "--timeout", value] =
      .ok (awaiting (.valued ⟨"timeout", some .word⟩ value), none) := by
    rw [Form.read_cons rfl rfl, Form.read_cons rfl hoption,
      Form.read_cons rfl (Reader.take_value rfl rfl hvalue _)]
    rfl
  show ((form "describe").read _ _ >>= _) = _
  rw [hwords]
  show (Reader.settle _ >>= _) >>= _ = _
  rw [settle_timeout hread]
  rfl

/-- A number of seconds that begins with no hyphen is taken by its option. -/
theorem read_timeout {value : String} {seconds : Nat} (hread : readWord? value = some seconds)
    (hvalue : value.toList.head? ≠ some '-') :
    Invocation.read none ["describe", "web", "--timeout", value] =
      .ok ⟨none, .describe "web" (some seconds) false⟩ := by
  have htop : topForm.read {} ["describe", "web", "--timeout", value] =
      .ok ({}, some ("describe", ["web", "--timeout", value])) := rfl
  show (topForm.read _ _ >>= _) = _
  rw [htop]
  show (Invocation.readBehind _ _ _ >>= _) = _
  rw [readBehind_timeout hread hvalue]
  show Except.ok (Invocation.mk none (.describe "web" (readWord? value) false)) = _
  rw [hread]

/-- **A command line can give every word**, and nothing else. -/
theorem takes_iff {seconds : Nat} : Takes seconds ↔ seconds < Nat.pow 2 64 := by
  constructor
  · rintro ⟨environment, words, settings, machine, json, hread⟩
    obtain ⟨name, g, hg⟩ := exists_given_of_read hread
    exact lt_of_ofGiven hg.symm
  · intro hlt
    refine ⟨_, _, _, _, _, read_timeout (readWord?_natChars hlt) ?_⟩
    rw [String.toList_ofList]
    intro hhead
    have hdigit := Numeral.isDigit_natChars '-' (List.mem_of_head? hhead)
    exact absurd hdigit (by decide)

end Command

/-! ### Looking for a machine -/

/-- The clock shows the time so many seconds from now, and the time of the first question. -/
def Clock.Allows (now seconds : Nat) : Prop :=
  now / 1000 + seconds < Nat.pow 2 63 ∧ (now + 500) / 1000 < Nat.pow 2 63

theorem Clock.shows_iff {time : Nat} : shows time = true ↔ time / 1000 < Nat.pow 2 63 := by
  rw [shows, decide_eq_true_iff, lastSecond, Nat.pow_eq]
  omega

/-- Before the last second that the clock shows, only the deadline can be too late. -/
theorem Clock.allows_iff {now seconds : Nat} (h : now / 1000 + 1 < Nat.pow 2 63) :
    Allows now seconds ↔ now / 1000 + seconds < Nat.pow 2 63 := by
  have hfirst : (now + 500) / 1000 ≤ now / 1000 + 1 := by omega
  exact and_iff_left (Nat.lt_of_le_of_lt hfirst h)

/-- The clock never leaves room for a number of the second half. -/
theorem Clock.not_allows_of_le {seconds : Nat} (h : Nat.pow 2 63 ≤ seconds) (now : Nat) :
    ¬ Allows now seconds := fun hallows =>
  Nat.not_lt.mpr (Nat.le_trans h (Nat.le_add_left seconds _)) hallows.1

/-- A lookup gives a machine back, or one of two errors: a bag that is not complete, or the last
failure before the time has run out. -/
inductive Lookup.Returns (name : String) : Lookup → Prop
  | found (machine : MachineDescriptor) (time : Nat) : Returns name (.found machine time)
  | incomplete (property expected : String) (time : Nat) :
      Returns name (.failed (.property property expected) time)
  | expired (last : Error) (time : Nat) :
      Returns name (.failed (.timeout (Machine.lookingFor name) (some last)) time)

variable {σ : Type}

namespace Machine

theorem showable_asking_iff {seconds now : Nat} :
    (asking (1000 * seconds)).showable now = true ↔ Clock.Allows now seconds := by
  have hsum : (now + 1000 * seconds) / 1000 = now / 1000 + seconds :=
    Nat.add_mul_div_left now seconds (by decide)
  rw [Poll.showable, Bool.and_eq_true, Clock.shows_iff, Clock.shows_iff, Clock.Allows, ← hsum]
  rfl

theorem describe_of_not_allows (bus : Bus σ) (s : σ) (name : String) {seconds now : Nat}
    (h : ¬ Clock.Allows now seconds) :
    describe bus s name (1000 * seconds) now = (⟨[], .unshowable, s⟩, .unshowable) :=
  describe_of_not_showable bus s name (Bool.eq_false_iff.mpr (mt showable_asking_iff.mp h))

/-- **A lookup whose times can be shown returns**, unless a question that is not raced against the
deadline is never answered. -/
theorem returns_of_allows (bus : Bus σ) (s : σ) (name : String) {seconds now : Nat}
    (h : Clock.Allows now seconds) :
    let d := describe bus s name (1000 * seconds) now
    d.2.Returns name ∨ d.2 = .silent ∧
      ∃ n, ¬ Poll.Raced n ∧ Source.reply (bus.describeMachine name) s n = .never := by
  intro d
  obtain ⟨hne, hd⟩ := describe_eq bus s name _ now (showable_asking_iff.mpr h)
  have hend := (asking (1000 * seconds)).course_outcome (bus.describeMachine name) s now
  generalize (asking (1000 * seconds)).course (bus.describeMachine name) s now = r
    at hne hd hend
  obtain ⟨asked, finish, source⟩ := r
  have hresult : d.2 = lookup name (finish.toEnd hne) := congrArg (·.2) hd
  dsimp only at hend
  rcases hend with ⟨fs, hnever, hraced, rfl⟩ | ⟨_, bag, time, -, -, rfl⟩ |
    ⟨_, _, last, _, stop, -, -, -, rfl⟩
  · exact .inr ⟨hresult, fs.length, hraced, Poll.reply_of_answers hnever⟩
  · have hresult : d.2 = lookup name (.answered bag time) := hresult
    rw [hresult, lookup]
    cases hbag : MachineDescriptor.ofBag bag with
    | ok machine => exact .inl (.found machine time)
    | error e =>
      obtain ⟨_, want, _, -, -, -, rfl⟩ := MachineDescriptor.ofBag_eq_error_iff.mp hbag
      exact .inl (.incomplete _ _ time)
  · have hresult : d.2 = .failed (.timeout (lookingFor name) (some last)) stop := hresult
    rw [hresult]
    exact .inl (.expired last stop)

theorem unshowable_iff (bus : Bus σ) (s : σ) (name : String) {seconds now : Nat} :
    (describe bus s name (1000 * seconds) now).2 = .unshowable ↔ ¬ Clock.Allows now seconds := by
  constructor
  · intro hd h
    rcases returns_of_allows bus s name h with hreturns | ⟨hsilent, -⟩
    · rw [hd] at hreturns
      cases hreturns
    · rw [hd] at hsilent
      cases hsilent
  · intro h
    rw [describe_of_not_allows bus s name h]

end Machine

/-! ### The two commands -/

namespace World

/-- Showing a machine is given up where its lookup is. -/
theorem aborted_describe_iff (w : World σ) (settings : Settings) (machine : String)
    (timeout : Option Nat) (json : Bool) (s : σ) :
    (describe w settings machine timeout json s).conclusion = .aborted ↔
      (Machine.describe w.bus s machine (1000 * timeout.getD settings.describeTimeout)
        w.uptime).2 = .unshowable := by
  simp only [describe]
  generalize Machine.describe w.bus s machine _ w.uptime = d
  obtain ⟨course, found⟩ := d
  cases found <;> simp [failure]

/-- A run that looks for its machine is given up where its lookup is, behind the start of its
process. -/
theorem Launched.aborted_iff {w : World σ} {settings : Settings} {file name : String} {id : TaskId}
    {s : σ} (l : Launched w settings file name id s) :
    (supervise w settings l.prepared l.arguments name id true l.now l.source).conclusion =
      .aborted ↔ l.lookup = .unshowable := by
  rw [l.conclusion_supervise]
  have hends := Conclusion.ends_ofWait id l.waited
  cases l.lookup with
  | unshowable => simp
  | silent => simp
  | found | failed =>
    simp only [reduceCtorEq, iff_false]
    intro h
    rw [h] at hends
    exact hends

/-- **The times that a lookup can wait for.** Every word can be given as a number of seconds, by a
file of settings and on a command line, and nothing else can. For every bus, machine and time of
the clock:

* if the clock shows the deadline and the time of the first question, a lookup comes to a machine,
  or to an error that says what the bag lacks or that time has run out; but it never ends where a
  question that is not raced against the deadline is never answered;
* otherwise it is over at once, with neither, and nothing has been asked;
* the clock shows the times if the deadline is before its end, unless it is about to end itself; and
  it never does for the second half of the numbers that can be given;
* showing a machine is given up like this just where the clock does not allow for the number that is
  given, when the command begins, and a run that looks for its machine just where it does not allow
  for the number in the settings, when the machine is looked for. Its process has been started by
  then, and is not waited for. -/
theorem describe_aborts_iff :
    (∀ seconds, Settings.Holds seconds ↔ seconds < Nat.pow 2 64) ∧
      (∀ seconds, Command.Takes seconds ↔ seconds < Nat.pow 2 64) ∧
      (∀ (bus : Bus σ) (s : σ) (name : String) (seconds now : Nat),
        let d := Machine.describe bus s name (1000 * seconds) now
        (Clock.Allows now seconds →
            d.2.Returns name ∨ d.2 = .silent ∧
              ∃ n, ¬ Poll.Raced n ∧ Source.reply (bus.describeMachine name) s n = .never) ∧
          (¬ Clock.Allows now seconds → d = (⟨[], .unshowable, s⟩, .unshowable))) ∧
      (∀ seconds now, now / 1000 + 1 < Nat.pow 2 63 →
        (Clock.Allows now seconds ↔ now / 1000 + seconds < Nat.pow 2 63)) ∧
      (∀ seconds now, Nat.pow 2 63 ≤ seconds → ¬ Clock.Allows now seconds) ∧
      (∀ (w : World σ) settings s machine timeout json,
        (w.execute settings s (.describe machine timeout json)).conclusion = .aborted ↔
          ¬ Clock.Allows w.uptime (timeout.getD settings.describeTimeout)) ∧
      ∀ (w : World σ) settings file name id s (l : Launched w settings file name id s),
        (supervise w settings l.prepared l.arguments name id true l.now l.source).conclusion =
          .aborted ↔ ¬ Clock.Allows l.now settings.describeTimeout := by
  refine ⟨fun _ => Settings.holds_iff, fun _ => Command.takes_iff, fun bus s name seconds now =>
    ⟨Machine.returns_of_allows bus s name, Machine.describe_of_not_allows bus s name⟩,
    fun _ _ => Clock.allows_iff, fun _ now h => Clock.not_allows_of_le h now,
    fun w settings s machine timeout json => ?_, fun w settings file name id s l => ?_⟩
  · rw [execute, aborted_describe_iff, Machine.unshowable_iff]
  · rw [l.aborted_iff, Launched.lookup, Machine.unshowable_iff]

/-- A machine that is there. -/
def web : MachineDescriptor where
  name := "web"
  timestampMonotonic := 1
  timestamp := 2
  networkInterfaces := [3]
  id := [4]
  kind := "container"
  leader := 42
  rootDirectory := "/var/lib/machines/web"
  service := "systemd-nspawn"
  state := "running"
  unit := "machine-web.scope"

/-- A bus that knows the properties of that machine, and answers at once. -/
def readyBus : Bus Unit where
  describeMachine _ s := (.after 0 (.ok (.ofList web.properties)), s)
  describeImage _ s := (.never, s)
  listTransfers s := (.never, s)
  pull _ s := (.never, s)

/-- **The longest time that can be given.** A file holds it and a command line takes it; the machine
is there, and is found by whoever waits for the usual time. Whoever waits for the longest gets
neither the machine nor an error, whatever the clock shows. -/
theorem describe_longest :
    Settings.ofJson "\x7b\"describe_timeout_secs\": 18446744073709551615\x7d".toList =
        .ok { describeTimeout := 18446744073709551615 } ∧
      Invocation.read none ["describe", "web", "--timeout", "18446744073709551615"] =
        .ok ⟨none, .describe "web" (some 18446744073709551615) false⟩ ∧
      (Machine.describe readyBus () "web" (1000 * 30) 0).2 = .found web 500 ∧
      ∀ now,
        (Machine.describe readyBus () "web" (1000 * 18446744073709551615) now).2 = .unshowable ∧
        ¬ (Machine.describe readyBus () "web" (1000 * 18446744073709551615) now).2.Returns
          "web" := by
  have hunshowable (now : Nat) :
      (Machine.describe readyBus () "web" (1000 * 18446744073709551615) now).2 = .unshowable :=
    (Machine.unshowable_iff ..).mpr (Clock.not_allows_of_le (by decide) now)
  have hread : readWord? "18446744073709551615" = some 18446744073709551615 := by decide +kernel
  refine ⟨by decide +kernel, Command.read_timeout hread (by decide), ?_,
    fun now => ⟨hunshowable now, ?_⟩⟩
  · have hallows : Clock.Allows 0 30 := by simp [Clock.Allows]
    obtain ⟨hne, hd⟩ := Machine.describe_eq readyBus () "web" _ 0
      (Machine.showable_asking_iff.mpr hallows)
    have hanswer : (readyBus.describeMachine "web" ()).1 =
        .after 0 (.ok (.ofList web.properties)) := rfl
    have hcourse : (Machine.asking (1000 * 30)).course (readyBus.describeMachine "web") () 0 = _ :=
      Poll.course_of_ok _ hanswer
    have hbag : MachineDescriptor.ofBag (.ofList web.properties) = .ok web := rfl
    generalize (Machine.asking (1000 * 30)).course (readyBus.describeMachine "web") () 0 = r
      at hne hd hcourse
    subst hcourse
    rw [hd]
    show Machine.lookup "web" (.answered (.ofList web.properties) 500) = _
    rw [Machine.lookup, hbag]
  · rw [hunshowable]
    intro h
    cases h

end World

end Capsule
