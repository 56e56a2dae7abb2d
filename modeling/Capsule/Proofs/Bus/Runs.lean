import Capsule.Bus.Client
import Capsule.Proofs.Bus.Listing

/-!
# Runs of the client

The bus is reached by running a program, and whoever asks it anything must know two things: which
runs there have been, since a run may do something; and what was wrong if there is no answer, since
a failure of the bus and a reply that cannot be read are told apart by nothing but the error.

Both are read off the outcomes of the runs. `ClientRun.Fault` is what can be wrong with one run, in
the order in which it is noticed, and there is one such list for all methods: the client is not run,
or it refuses, or it prints no JSON, or JSON of another shape. A question about a machine or an
image takes two runs, and the second is made if there is nothing wrong with the first.

## What is observed

`Client.recorded` is a client that writes down the arguments of its runs, whatever else it does. A
dialogue also says which methods it has called, and `Dialogue.run_recorded` says that the two agree;
but what is proved of the bus is said of the runs that were written down.

## Main definitions

* `Client.recorded`: a client that keeps the arguments of its runs
* `ClientRun.Brings`, `ClientRun.Fault`: the reply that a run brings, and what is wrong with it
* `Subject`: machines and images, of which the same is asked

## Main results

* `Dialogue.run_recorded`: a dialogue makes the runs that it speaks of, and no others
* `Client.bus_runs`: the runs behind each call, and what comes of it
-/

namespace Capsule

variable {σ α β : Type}

/-- A client that keeps the arguments of its runs, in the order in which they were made. -/
def Client.recorded (client : List String → σ → ClientRun × σ) (words : List String)
    (s : σ × List (List String)) : ClientRun × (σ × List (List String)) :=
  let (r, s') := client words s.1
  (r, s', s.2 ++ [words])

namespace ClientRun

/-- A run brings a reply: the client has succeeded, and what it has printed is the JSON text of that
reply. -/
def Brings (r : ClientRun) (reply : Json) : Prop :=
  ∃ output errors, r = .finished true output errors ∧ Json.ofBytes output = .ok reply

/-- What is wrong with a run for a method whose reply is read in some way. -/
inductive Fault (binary : String) (m : Method) (read : Json → Except Error α) :
    ClientRun → Error → Prop
  | notStarted (problem : FileProblem) :
      Fault binary m read (.notStarted problem) (.bus (.notRun binary problem))
  | refused (output errors : List UInt8) :
      Fault binary m read (.finished false output errors)
        (.bus (.refused (m.interface ++ "." ++ m.name) (ClientRun.words errors)))
  | noJson {output : List UInt8} (errors : List UInt8) {problem : Problem}
      (h : Json.ofBytes output = .error problem) :
      Fault binary m read (.finished true output errors) (.json problem)
  | shape {r : ClientRun} {reply shown : Json} {what : String} (brings : r.Brings reply)
      (h : read reply = .error (.bus (.unexpected what shown))) :
      Fault binary m read r (.bus (.unexpected what shown))

end ClientRun

/-- What one run comes to, for a method whose reply is read in some way: what the reply is read as,
or what is wrong. -/
structure ClientRun.Settles (binary : String) (m : Method) (read : Json → Except Error α)
    (r : ClientRun) (outcome : Except Error α) : Prop where
  ok_iff (a : α) : outcome = .ok a ↔ ∃ reply, r.Brings reply ∧ read reply = .ok a
  error_iff (e : Error) : outcome = .error e ↔ r.Fault binary m read e

/-- A way of reading replies that blames their shape if it fails. -/
def Reply.BlamesShape (read : Json → Except Error α) : Prop :=
  ∀ reply e, read reply = .error e → ∃ what shown, e = .bus (.unexpected what shown)

/-! ### One run -/

section

variable {binary : String} {m : Method} {r : ClientRun} {reply : Json}
  {read : Json → Except Error α} {e : Error}

theorem Method.reply_eq_ok_iff : m.reply binary r = .ok reply ↔ r.Brings reply := by
  rcases r with problem | ⟨_ | _, output, errors⟩
  · simp [Method.reply, ClientRun.Brings]
  · simp [Method.reply, ClientRun.Brings]
  · have hbrings : (ClientRun.finished true output errors).Brings reply ↔
        Json.ofBytes output = .ok reply := by
      simp [ClientRun.Brings]
    rw [hbrings, Method.reply]
    cases Json.ofBytes output <;> simp [Except.mapError]

theorem Method.bind_reply_eq_ok_iff {a : α} :
    (m.reply binary r).bind read = .ok a ↔ ∃ reply, r.Brings reply ∧ read reply = .ok a := by
  rw [show (m.reply binary r).bind read = (m.reply binary r >>= read) from rfl,
    Except.bind_eq_ok_iff]
  simp only [Method.reply_eq_ok_iff]

theorem Method.bind_reply_eq_error_iff (hread : Reply.BlamesShape read) :
    (m.reply binary r).bind read = .error e ↔ r.Fault binary m read e := by
  constructor
  · intro h
    rcases r with problem | ⟨_ | _, output, errors⟩
    · cases h
      exact .notStarted problem
    · cases h
      exact .refused output errors
    · cases hbytes : Json.ofBytes output with
      | error problem =>
        rw [Method.reply, hbytes] at h
        cases h
        exact .noJson errors hbytes
      | ok reply =>
        rw [Method.reply, hbytes] at h
        obtain ⟨what, shown, rfl⟩ := hread reply e h
        exact .shape ⟨output, errors, rfl, hbytes⟩ h
  · intro h
    cases h with
    | notStarted problem => rfl
    | refused output errors => rfl
    | noJson errors h =>
      rw [Method.reply, h]
      rfl
    | shape brings h =>
      rw [Method.reply_eq_ok_iff.mpr brings]
      exact h

/-- The reply to a method is read, or there is something wrong with the run. -/
theorem Method.settles_bind_reply (hread : Reply.BlamesShape read) :
    r.Settles binary m read ((m.reply binary r).bind read) :=
  ⟨fun _ => Method.bind_reply_eq_ok_iff, fun _ => Method.bind_reply_eq_error_iff hread⟩

end

/-! ### Shapes -/

namespace Reply

theorem objectPath_eq_ok_iff {reply : Json} {path : String} :
    objectPath reply = .ok path ↔ Gives reply (.string path) := by
  rw [objectPath, ← firstArgument?_eq_some_iff]
  cases firstArgument? reply with
  | none => simp [unexpected]
  | some j => cases j <;> simp [Json.text?, unexpected]

theorem blamesShape_objectPath : BlamesShape objectPath := by
  intro reply e h
  unfold objectPath at h
  split at h
  · cases h
  · cases h
    exact ⟨_, _, rfl⟩

theorem blamesShape_properties : BlamesShape properties := by
  intro reply e h
  unfold properties at h
  split at h
  · cases h
  · cases h
    exact ⟨_, _, rfl⟩

theorem blamesShape_transfers : BlamesShape transfers := by
  intro reply e h
  rcases transfers_eq_error_iff.mp h with ⟨-, rfl⟩ | ⟨_, _, _, -, -, -, rfl⟩ <;>
    exact ⟨_, _, rfl⟩

theorem blamesShape_started : BlamesShape started := by
  intro reply e h
  exact ⟨_, _, (started_eq_error_iff.mp h).2⟩

end Reply

/-! ### Dialogues -/

namespace Dialogue

variable (client : List String → σ → ClientRun × σ)

/-- **A dialogue makes the runs that it speaks of**, and no others. -/
theorem run_recorded (d : Dialogue α) (s : σ) (log : List (List String)) :
    let r := d.run client s
    d.run (Client.recorded client) (s, log) =
      (r.1, r.2.1, r.2.2, log ++ r.2.1.map Method.arguments) := by
  induction d generalizing s log with
  | done outcome => simp [run]
  | call m next ih =>
    obtain ⟨r, s', hclient⟩ : ∃ r s', client m.arguments s = (r, s') := ⟨_, _, rfl⟩
    simp only [run, Client.recorded, hclient, ih]
    simp

theorem answer_recorded (d : Dialogue α) (s : σ) :
    let r := d.run client s
    d.answer (Client.recorded client) (s, []) =
      (.after 0 r.1, r.2.2, r.2.1.map Method.arguments) := by
  intro r
  rw [answer, run_recorded]
  rfl

variable {binary interface : String} {m : Method} {s : σ}

/-- Where nothing is found there is no second run. -/
theorem run_describe_of_error {e : Error}
    (h : (m.reply binary (client m.arguments s).1).bind Reply.objectPath = .error e) :
    (describe binary m interface).run client s = (.error e, [m], (client m.arguments s).2) := by
  simp only [describe, run, h, proceed]

/-- An object that is found is asked for its properties. -/
theorem run_describe_of_ok {object : String}
    (h : (m.reply binary (client m.arguments s).1).bind Reply.objectPath = .ok object) :
    let get := Method.allProperties object interface
    let second := client get.arguments (client m.arguments s).2
    (describe binary m interface).run client s =
      ((get.reply binary second.1).bind Reply.properties, [m, get], second.2) := by
  simp only [describe, run, h, proceed, single]

/-- A single call takes one run, which settles it. -/
theorem answer_single (binary : String) (m : Method) {read : Json → Except Error α}
    (hread : Reply.BlamesShape read) (s : σ) :
    let asked := (single binary m read).answer (Client.recorded client) (s, [])
    asked.2.2 = [m.arguments] ∧ ∃ outcome, asked.1 = .after 0 outcome ∧
      (client m.arguments s).1.Settles binary m read outcome := by
  intro asked
  have hasked : asked = (.after 0 ((m.reply binary (client m.arguments s).1).bind read),
      (client m.arguments s).2, [m.arguments]) := rfl
  rw [hasked]
  exact ⟨rfl, _, rfl, Method.settles_bind_reply hread⟩

end Dialogue

/-! ### The bus -/

/-- What the manager of machines is asked about. -/
inductive Subject
  | machine
  | image

namespace Subject

variable (x : Subject)

def question : String :=
  match x with
  | .machine => "GetMachine"
  | .image => "GetImage"

def interface : String :=
  match x with
  | .machine => "org.freedesktop.machine1.Machine"
  | .image => "org.freedesktop.machine1.Image"

/-- The question for the object of a name. -/
def find (name : String) : Method := .ofMachineManager x.question ["s", name]

/-- The question for all properties of an object. -/
def inspect (object : String) : Method := .allProperties object x.interface

def dialogue (binary name : String) : Dialogue PropertyBag :=
  .describe binary (x.find name) x.interface

/-- How a bus is asked about a subject. -/
def ask (bus : Bus σ) (name : String) : σ → Answer PropertyBag × σ :=
  match x with
  | .machine => bus.describeMachine name
  | .image => bus.describeImage name

end Subject

/-- A run names an object: it brings a reply that gives a text out. -/
def ClientRun.Names (r : ClientRun) (object : String) : Prop :=
  ∃ reply, r.Brings reply ∧ Reply.Gives reply (.string object)

theorem Subject.ask_bus (x : Subject) (binary name : String)
    (client : List String → σ → ClientRun × σ) :
    x.ask (Client.bus binary client) name = (x.dialogue binary name).answer client := by
  cases x <;> rfl

/-- A run that names an object is one whose reply is read as it. -/
theorem ClientRun.names_iff {binary : String} {m : Method} {r : ClientRun} {object : String} :
    (m.reply binary r).bind Reply.objectPath = .ok object ↔ r.Names object := by
  rw [Method.bind_reply_eq_ok_iff]
  simp only [Reply.objectPath_eq_ok_iff, ClientRun.Names]

/-- **A question about a subject takes two runs at most.** The second is made if the first names an
object, and asks that object for its properties; what is wrong with the first is what is wrong with
the whole, and otherwise the second settles it. -/
theorem Subject.runs_ask (x : Subject) (binary name : String)
    (client : List String → σ → ClientRun × σ) (s : σ) :
    let asked := x.ask (Client.bus binary (Client.recorded client)) name (s, [])
    let first := client (x.find name).arguments s
    let second (object : String) := client (x.inspect object).arguments first.2
    (asked.2.2.length ≤ 2 ∧ asked.2.2.head? = some (x.find name).arguments ∧
      ∀ words, asked.2.2[1]? = some words ↔
        ∃ object, first.1.Names object ∧ words = (x.inspect object).arguments) ∧
    ∃ outcome, asked.1 = .after 0 outcome ∧
      (∀ bag, outcome = .ok bag ↔ ∃ object reply, first.1.Names object ∧
        (second object).1.Brings reply ∧ Reply.properties reply = .ok bag) ∧
      ∀ e, outcome = .error e ↔ first.1.Fault binary (x.find name) Reply.objectPath e ∨
        ∃ object, first.1.Names object ∧
          (second object).1.Fault binary (x.inspect object) Reply.properties e := by
  intro asked first second
  have hfault : ∀ e, ((x.find name).reply binary first.1).bind Reply.objectPath = .error e ↔
      first.1.Fault binary (x.find name) Reply.objectPath e :=
    fun e => Method.bind_reply_eq_error_iff Reply.blamesShape_objectPath
  have hnames : ∀ object, ((x.find name).reply binary first.1).bind Reply.objectPath = .ok object ↔
      first.1.Names object := fun object => ClientRun.names_iff
  have hasked : asked = (x.dialogue binary name).answer (Client.recorded client) (s, []) :=
    congrFun (x.ask_bus binary name _) _
  rw [hasked, Dialogue.answer_recorded]
  cases h : ((x.find name).reply binary first.1).bind Reply.objectPath with
  | error e =>
    have hno : ∀ object, ¬ first.1.Names object := by
      intro object hobject
      cases h.symm.trans ((hnames object).mpr hobject)
    rw [Subject.dialogue, Dialogue.run_describe_of_error client h]
    refine ⟨⟨Nat.le_succ 1, rfl, fun words => ?_⟩, _, rfl, fun bag => ?_, fun e' => ?_⟩
    · simp [hno]
    · simp [hno]
    · rw [← hfault, h]
      simp [hno]
  | ok object =>
    have hobject : ∀ object', first.1.Names object' ↔ object = object' := by
      intro object'
      rw [← hnames, h, Except.ok.injEq]
    have hsecond : (second object).1.Settles binary (x.inspect object) Reply.properties _ :=
      Method.settles_bind_reply Reply.blamesShape_properties
    have hnone : ∀ e, ¬ first.1.Fault binary (x.find name) Reply.objectPath e := by
      intro e he
      cases h.symm.trans ((hfault e).mpr he)
    rw [Subject.dialogue, Dialogue.run_describe_of_ok client h]
    refine ⟨⟨Nat.le_refl 2, rfl, fun words => ?_⟩, _, rfl, fun bag => ?_, fun e => ?_⟩
    · simp [hobject, eq_comm, Subject.inspect]
    · simp only [hobject, exists_and_left, exists_eq_left']
      exact hsecond.ok_iff bag
    · simp only [hnone, false_or, hobject, exists_eq_left']
      exact hsecond.error_iff e

/-- **The runs behind each call, and what comes of it.** Whatever becomes of the runs, a question
about a machine or an image takes two of them at most. The first asks the manager for the name. The
second asks for all properties of an object, and is made just if the first has named that object.
What is answered is the bag that the second brings, or else what is wrong with the first, or with
the second. A list of transfers and a pull take one run, and what can be wrong with it is the
same. -/
theorem Client.bus_runs (binary : String) (client : List String → σ → ClientRun × σ) (s : σ) :
    let bus := Client.bus binary (Client.recorded client)
    (∀ (x : Subject) (name : String),
      let asked := x.ask bus name (s, [])
      let find := ["--system", "--json=short", "call", "org.freedesktop.machine1",
        "/org/freedesktop/machine1", "org.freedesktop.machine1.Manager", x.question, "s", name]
      let inspect (object : String) := ["--system", "--json=short", "call",
        "org.freedesktop.machine1", object, "org.freedesktop.DBus.Properties", "GetAll", "s",
        x.interface]
      let first := client find s
      let second (object : String) := client (inspect object) first.2
      (asked.2.2.length ≤ 2 ∧ asked.2.2.head? = some find ∧
        ∀ words, asked.2.2[1]? = some words ↔
          ∃ object, first.1.Names object ∧ words = inspect object) ∧
      ∃ outcome, asked.1 = .after 0 outcome ∧
        (∀ bag, outcome = .ok bag ↔ ∃ object reply, first.1.Names object ∧
          (second object).1.Brings reply ∧ Reply.properties reply = .ok bag) ∧
        ∀ e, outcome = .error e ↔ first.1.Fault binary (x.find name) Reply.objectPath e ∨
          ∃ object, first.1.Names object ∧
            (second object).1.Fault binary (x.inspect object) Reply.properties e) ∧
    (let asked := bus.listTransfers (s, [])
      let words := ["--system", "--json=short", "call", "org.freedesktop.import1",
        "/org/freedesktop/import1", "org.freedesktop.import1.Manager", "ListTransfers"]
      asked.2.2 = [words] ∧ ∃ outcome, asked.1 = .after 0 outcome ∧
        (client words s).1.Settles binary (.ofImportManager "ListTransfers") Reply.transfers
          outcome) ∧
    ∀ request : PullRequest,
      let asked := bus.pull request (s, [])
      let words := (Method.pull request).arguments
      asked.2.2 = [words] ∧ ∃ outcome, asked.1 = .after 0 outcome ∧
        (client words s).1.Settles binary (.pull request) Reply.started outcome := by
  intro bus
  refine ⟨fun x name => x.runs_ask binary name client s, ?_, fun request => ?_⟩
  · exact Dialogue.answer_single client binary (.ofImportManager "ListTransfers")
      Reply.blamesShape_transfers s
  · exact Dialogue.answer_single client binary (.pull request) Reply.blamesShape_started s

end Capsule
