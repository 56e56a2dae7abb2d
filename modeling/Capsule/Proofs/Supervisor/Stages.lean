import Capsule.Proofs.Supervisor.Journey

/-!
# What the stages of a launch do

A journey is a program, and this file reads off it what a launch does outside: which calls it makes
and in which order, when a process is started and with which arguments. Nothing here looks at the
steps of a launch.

`Adds` is the contract of a part of a journey. It speaks of what the part adds to the effects that
were there before, whether it is done, fails or waits for good; so the rule of sequences asks for
one thing more than usual, that what the first part has added may be all.

## Main definitions

* `Journey.Adds`: what a part of a launch does outside
* `Journey.InOrder`: the calls of a launch

## Main results

* `Journey.adds_launch`: the calls of a launch are in order
* `Journey.launch_eq_ok`, `Journey.launch_eq_error`: what has been started
-/

namespace Capsule

/-- Effects that start nothing and signal nobody: these calls, and reports. -/
structure Effects.IsTalk (calls : List Call) (e : Effects) : Prop where
  calls_eq : e.calls = calls
  starts_eq : e.starts = []
  started_eq : e.started = []
  signals_eq : e.signals = []

namespace Effects.IsTalk

variable {e f : Effects} {as bs : List Call}

theorem empty : IsTalk [] {} := ⟨rfl, rfl, rfl, rfl⟩

theorem append (he : e.IsTalk as) (hf : f.IsTalk bs) : (e ++ f).IsTalk (as ++ bs) :=
  ⟨by simp [he.calls_eq, hf.calls_eq], by simp [he.starts_eq, hf.starts_eq],
    by simp [he.started_eq, hf.started_eq], by simp [he.signals_eq, hf.signals_eq]⟩

end Effects.IsTalk

namespace Journey

variable {α β : Type}

/-- Where a part of a launch ends, whether it is done or not. -/
def behind : EStateM.Result Halt Point α → Point
  | .ok _ y => y
  | .error _ y => y

/-- A part of a launch adds such effects to those that were there before, however it ends. -/
def Adds (P : Effects → Prop) (m : Journey α) (x : Point) : Prop :=
  ∃ e, P e ∧ (behind (m x)).effects = x.effects ++ e

variable {P Q R : Effects → Prop} {m : Journey α} {k : α → Journey β} {x y z : Point}

theorem bind_eq_ok {b : β} :
    (m >>= k) x = .ok b z ↔ ∃ a y, m x = .ok a y ∧ k a y = .ok b z := by
  rw [bind_apply]
  cases h : m x with
  | ok a y => simp [and_assoc]
  | error e y => simp

theorem bind_eq_error {e : Halt} :
    (m >>= k) x = .error e z ↔
      m x = .error e z ∨ ∃ a y, m x = .ok a y ∧ k a y = .error e z := by
  rw [bind_apply]
  cases h : m x with
  | ok a y => simp [and_assoc]
  | error e y => simp

namespace Adds

theorem mono (h : Adds P m x) (hPQ : ∀ e, P e → Q e) : Adds Q m x :=
  let ⟨e, he, heq⟩ := h
  ⟨e, hPQ e he, heq⟩

/-- **The rule of sequences.** -/
theorem bind (hm : Adds P m x) (hk : ∀ a y, m x = .ok a y → Adds Q (k a) y)
    (halted : ∀ e, P e → R e) (both : ∀ e f, P e → Q f → R (e ++ f)) : Adds R (m >>= k) x := by
  obtain ⟨e, he, heq⟩ := hm
  rw [Adds, bind_apply]
  cases hx : m x with
  | ok a y =>
    rw [hx] at heq
    obtain ⟨f, hf, hfeq⟩ := hk a y hx
    exact ⟨e ++ f, both e f he hf, by rw [hfeq, ← Effects.append_assoc, ← heq]; rfl⟩
  | error h y =>
    rw [hx] at heq
    exact ⟨e, halted e he, heq⟩

/-- A part that does nothing outside may be left out. -/
theorem bind_silent (hm : Adds (· = {}) m x) (hk : ∀ a y, m x = .ok a y → Adds P (k a) y)
    (hempty : P {}) : Adds P (m >>= k) x :=
  hm.bind hk (by rintro _ rfl; exact hempty) (by rintro _ f rfl hf; rwa [Effects.empty_append])

theorem pure (a : α) (x : Point) : Adds (· = {}) (Pure.pure a : Journey α) x :=
  ⟨{}, rfl, (x.effects.append_empty).symm⟩

theorem throw (e : Halt) (x : Point) : Adds (· = {}) (MonadExcept.throw e : Journey α) x :=
  ⟨{}, rfl, (x.effects.append_empty).symm⟩

theorem act (e : Effects) (x : Point) : Adds (· = e) (Journey.act e) x := ⟨e, rfl, rfl⟩

theorem ofExcept (r : Except Error α) (x : Point) : Adds (· = {}) (Journey.ofExcept r) x := by
  cases r with
  | ok a => exact pure a x
  | error e => exact throw _ x

theorem await (expected : Arrival → Option α) (x : Point) :
    Adds (· = {}) (Journey.await expected) x := by
  refine ⟨{}, rfl, ?_⟩
  rw [Effects.append_empty]
  rcases await_cases expected x with ⟨_, _, _, _, -, -, hawait⟩ | ⟨_, hawait⟩
  · rw [hawait]
    rfl
  · rw [hawait]
    rfl

end Adds

/-! ### The calls of a stage -/

/-- The effects of a watch. -/
def IsWatching (e : Effects) : Prop := ∃ n, e.IsTalk (List.replicate n .listTransfers)

theorem isWatching_empty : IsWatching {} := ⟨0, .empty⟩

theorem IsWatching.append {e f : Effects} (he : IsWatching e) (hf : IsWatching f) :
    IsWatching (e ++ f) := by
  obtain ⟨m, hm⟩ := he
  obtain ⟨n, hn⟩ := hf
  exact ⟨m + n, List.replicate_append_replicate ▸ hm.append hn⟩

theorem adds_watchFor (n : Nat) (w : Watch) (x : Point) : Adds IsWatching (watchFor n w) x := by
  induction n generalizing w x with
  | zero => exact (Adds.throw _ x).mono (by rintro _ rfl; exact isWatching_empty)
  | succ n ih =>
    refine (Adds.await _ x).bind_silent (fun _ y _ => ?_) isWatching_empty
    have hlist : IsWatching { calls := [.listTransfers] } := ⟨1, rfl, rfl, rfl, rfl⟩
    refine (Adds.act _ y).bind (fun _ y _ => ?_) (by rintro _ rfl; exact hlist)
      (by rintro _ f rfl hf; exact hlist.append hf)
    refine (Adds.await _ y).bind_silent (fun r y _ => ?_) isWatching_empty
    obtain ⟨_, outcome⟩ := r
    dsimp only
    cases Watch.judge w.id outcome with
    | «over» => exact (Adds.pure _ y).mono (by rintro _ rfl; exact isWatching_empty)
    | active progress =>
      have hreport : IsWatching { reports := (progress.map fun d => ⟨w.image, d⟩).toList } :=
        ⟨0, rfl, rfl, rfl, rfl⟩
      exact (Adds.act _ y).bind (fun _ y _ => ih _ y) (by rintro _ rfl; exact hreport)
        (by rintro _ f rfl hf; exact hreport.append hf)

theorem adds_fetch (request : PullRequest) (x : Point) :
    Adds (fun e => ∃ n, e.IsTalk (.pull request :: List.replicate n .listTransfers))
      (fetch request) x := by
  have hpull : Effects.IsTalk [.pull request] { calls := [.pull request] } := ⟨rfl, rfl, rfl, rfl⟩
  refine Adds.bind (Q := IsWatching) (Adds.act _ x) (fun _ y _ => ?_)
    (by rintro _ rfl; exact ⟨0, hpull⟩)
    (by rintro _ f rfl ⟨n, hf⟩; exact ⟨n, hpull.append hf⟩)
  refine (Adds.await _ y).bind_silent (fun _ y _ => ?_) isWatching_empty
  exact (Adds.ofExcept _ y).bind_silent (fun started y _ => adds_watchFor _ _ y) isWatching_empty

/-- The calls that fetch the image of a configuration: the first starts the transfer, and all others
list the transfers. There are none unless fetching is asked for and allowed. -/
def IsFetching (settings : Settings) (config : Config) (calls : List Call) : Prop :=
  calls = [] ∨ ∃ d request lists, settings.allowDownload = true ∧ config.download = some d ∧
    d.request config.image = .ok request ∧
    calls = .pull request :: List.replicate lists .listTransfers

/-- The calls of a launch: those that fetch the image, and then at most one that looks it up. -/
def InOrder (settings : Settings) (config : Config) (calls : List Call) : Prop :=
  ∃ fetching looking, IsFetching settings config fetching ∧
    (looking = [] ∨ looking = [.describeImage config.image]) ∧ calls = fetching ++ looking

variable {config : Config}

theorem adds_download (config : Config) (x : Point) :
    Adds (fun e => ∃ calls, e.IsTalk calls ∧
      IsFetching x.scene.surroundings.settings config calls) (download config) x := by
  have hnone : ∃ calls, Effects.IsTalk calls {} ∧
      IsFetching x.scene.surroundings.settings config calls := ⟨[], .empty, .inl rfl⟩
  rw [Adds, download, settings_bind, ← Adds]
  cases hd : Preparation.download? x.scene.surroundings.settings config with
  | none => exact (Adds.pure _ x).mono (by rintro _ rfl; exact hnone)
  | some d =>
    obtain ⟨hallowed, hconfig⟩ := Option.ite_none_right_eq_some.mp hd
    dsimp only
    cases hr : d.request config.image with
    | error e => exact (Adds.throw _ x).mono (by rintro _ rfl; exact hnone)
    | ok request =>
      refine (adds_fetch request x).mono ?_
      rintro e ⟨lists, he⟩
      exact ⟨_, he, .inr ⟨d, request, lists, hallowed, hconfig, hr, rfl⟩⟩

theorem adds_find (config : Config) (x : Point) :
    Adds (fun e => ∃ calls, e.IsTalk calls ∧
      (calls = [] ∨ calls = [.describeImage config.image])) (find config) x := by
  have hnone : ∃ calls, Effects.IsTalk calls {} ∧
      (calls = [] ∨ calls = [.describeImage config.image]) := ⟨[], .empty, .inl rfl⟩
  rw [find]
  split
  · exact (Adds.throw _ x).mono (by rintro _ rfl; exact hnone)
  · rw [Adds, host_bind, ← Adds]
    rcases Image.onDisk x.scene.surroundings.host config.image with e | _ | path
    · exact (Adds.throw _ x).mono (by rintro _ rfl; exact hnone)
    · have hlook : Effects.IsTalk [.describeImage config.image]
          { calls := [.describeImage config.image] } := ⟨rfl, rfl, rfl, rfl⟩
      simp only [ofExcept, pure_bind]
      refine Adds.bind (Q := (· = {})) (Adds.act _ x) (fun _ y _ => ?_)
        (by rintro _ rfl; exact ⟨_, hlook, .inr rfl⟩)
        (by rintro _ f rfl rfl; exact ⟨_, hlook, .inr rfl⟩)
      exact (Adds.await _ y).bind_silent (fun _ y _ => Adds.ofExcept _ y) rfl
    · exact (Adds.pure _ x).mono (by rintro _ rfl; exact hnone)

theorem adds_resolve (config : Config) (x : Point) :
    Adds (fun e => ∃ calls, e.IsTalk calls ∧
      (calls = [] ∨ calls = [.describeImage config.image])) (resolve config) x :=
  (adds_find config x).bind (fun path y _ => Adds.pure _ y) (fun _ he => he)
    (by rintro e _ he rfl; rwa [Effects.append_empty])

theorem adds_render (config : Config) (x : Point) : Adds (· = {}) (render config) x := by
  rw [Adds, render, host_bind, ← Adds]
  exact Adds.ofExcept _ x

theorem inOrder_withMachine (settings : Settings) (id : TaskId) (name : String)
    (calls : List Call) :
    InOrder settings (Preparation.withMachine config id name) calls ↔
      InOrder settings config calls := by
  simp only [InOrder, IsFetching, Preparation.download_withMachine,
    Preparation.image_withMachine]

/-- **The calls of a launch are in order**, and nothing is started before the last stage. -/
theorem adds_prepare (id : TaskId) (name : String) (config : Config) (x : Point) :
    Adds (fun e => ∃ calls, e.IsTalk calls ∧ InOrder x.scene.surroundings.settings config calls)
      (prepare id name config) x := by
  suffices h : Adds (fun e => ∃ calls, e.IsTalk calls ∧
      InOrder x.scene.surroundings.settings (Preparation.withMachine config id name) calls)
      (prepare id name config) x from
    h.mono fun e ⟨calls, he, hcalls⟩ => ⟨calls, he, (inOrder_withMachine ..).mp hcalls⟩
  generalize hsettings : x.scene.surroundings.settings = settings
  rw [prepare]
  cases config.validate with
  | error e =>
    refine (Adds.throw _ x).mono ?_
    rintro _ rfl
    exact ⟨[], .empty, [], [], .inl rfl, .inl rfl, rfl⟩
  | ok u =>
    generalize Preparation.withMachine config id name = named
    show Adds _ (do
      download named
      let found ← resolve named
      return (found, ← render found)) x
    refine Adds.bind (Q := fun e => ∃ calls, e.IsTalk calls ∧
      (calls = [] ∨ calls = [.describeImage named.image])) (adds_download named x)
      (fun _ y _ => ?_) ?_ ?_
    · refine Adds.bind (Q := (· = {})) (adds_resolve named y) (fun found z _ => ?_)
        (fun _ he => he) (by rintro e _ he rfl; rwa [Effects.append_empty])
      exact (adds_render found z).bind_silent (fun arguments z _ => Adds.pure _ z) rfl
    · rintro e ⟨calls, he, hcalls⟩
      exact ⟨calls, he, calls, [], hsettings ▸ hcalls, .inl rfl, (List.append_nil _).symm⟩
    · rintro e f ⟨fetching, he, hfetching⟩ ⟨looking, hf, hlooking⟩
      exact ⟨_, he.append hf, fetching, looking, hsettings ▸ hfetching, hlooking, rfl⟩

/-! ### What a launch comes to -/

theorem ofExcept_eq_ok {r : Except Error α} {a : α} :
    ofExcept r x = .ok a y ↔ r = .ok a ∧ x = y := by
  cases r with
  | ok b =>
    show EStateM.Result.ok b x = .ok a y ↔ _
    simp
  | error e =>
    show EStateM.Result.error (Halt.failed e) x = .ok a y ↔ _
    simp

theorem ofExcept_eq_error {r : Except Error α} {halt : Halt} :
    ofExcept r x = .error halt y ↔ ∃ e, r = .error e ∧ halt = .failed e ∧ x = y := by
  cases r with
  | ok a =>
    show EStateM.Result.ok a x = .error halt y ↔ _
    simp
  | error e =>
    show EStateM.Result.error (Halt.failed e) x = .error halt y ↔ _
    simp [eq_comm]

/-- What has been prepared: the configuration, with a name for its machine and a path for its image,
and the arguments for that path. -/
theorem prepare_eq_ok {id : TaskId} {name : String} {c : Config} {arguments : List String}
    (h : prepare id name config x = .ok (c, arguments) y) :
    ∃ path, c = { Preparation.withMachine config id name with imagePath := some path } ∧
      c.argumentsAt y.scene.surroundings.host path = .ok arguments := by
  obtain ⟨u, _, -, h⟩ := bind_eq_ok.mp h
  obtain ⟨_, _, -, h⟩ := bind_eq_ok.mp h
  obtain ⟨found, z, hfound, h⟩ := bind_eq_ok.mp h
  obtain ⟨path, _, -, hfound⟩ := bind_eq_ok.mp hfound
  cases hfound
  obtain ⟨_, _, hrender, h⟩ := bind_eq_ok.mp h
  rw [render, host_bind] at hrender
  obtain ⟨harguments, rfl⟩ := ofExcept_eq_ok.mp hrender
  cases h
  exact ⟨path, rfl, harguments⟩

/-- The effects of a start that succeeds, and what has become of it. -/
theorem start_eq_ok {id : TaskId} {arguments : List String} {process : Child}
    (h : start id arguments x = .ok process y) :
    x.scene.surroundings.launcher x.scene.starts arguments = .ok process ∧ y.scene = x.scene ∧
      y.effects = x.effects ++
        { starts := [arguments], started := [⟨x.scene.starts, id, process⟩] } := by
  cases hw : x.scene.surroundings.launcher x.scene.starts arguments with
  | error failure =>
    rw [start_of_error hw] at h
    cases h
  | ok child =>
    rw [start_of_ok hw] at h
    cases h
    exact ⟨rfl, rfl, rfl⟩

theorem start_eq_error {id : TaskId} {arguments : List String} {halt : Halt}
    (h : start id arguments x = .error halt y) :
    (∃ failure, halt = .failed (.process failure)) ∧
      y.effects = x.effects ++ { starts := [arguments] } := by
  cases hw : x.scene.surroundings.launcher x.scene.starts arguments with
  | error failure =>
    rw [start_of_error hw] at h
    cases h
    exact ⟨⟨failure, rfl⟩, rfl⟩
  | ok child =>
    rw [start_of_ok hw] at h
    cases h

theorem adds_start (id : TaskId) (arguments : List String) (x : Point) :
    Adds (fun e => e.calls = []) (start id arguments) x := by
  rw [Adds]
  cases h : start id arguments x with
  | ok process y => exact ⟨_, rfl, (start_eq_ok h).2.2⟩
  | error halt y => exact ⟨_, rfl, (start_eq_error h).2⟩

/-- **The calls of a launch are in order**, however it ends. -/
theorem adds_launch (id : TaskId) (name : String) (config : Config) (x : Point) :
    Adds (fun e => InOrder x.scene.surroundings.settings config e.calls)
      (launch id name config) x := by
  refine Adds.bind (Q := fun e => e.calls = []) (adds_prepare id name config x)
    (fun _ y _ => ?_) ?_ ?_
  · exact (adds_start id _ y).bind (fun process z _ => Adds.pure _ z) (fun _ he => he)
      (by rintro e _ he rfl; rwa [Effects.append_empty])
  · rintro e ⟨calls, he, hcalls⟩
    rwa [he.calls_eq]
  · rintro e f ⟨calls, he, hcalls⟩ hf
    rwa [Effects.calls_append, hf, List.append_nil, he.calls_eq]

variable {id : TaskId} {name : String}

/-- **A launch that arrives** has started one process, with the arguments of the configuration as it
was used. -/
theorem launch_eq_ok {a : Arrived} (h : launch id name config x = .ok a y) :
    (∃ path, a.config =
        { Preparation.withMachine config id name with imagePath := some path } ∧
        a.config.argumentsAt y.scene.surroundings.host path = .ok a.arguments) ∧
      y.scene.surroundings.launcher y.scene.starts a.arguments = .ok a.process ∧
      y.effects.starts = x.effects.starts ++ [a.arguments] ∧
      y.effects.started = x.effects.started ++ [⟨y.scene.starts, id, a.process⟩] := by
  obtain ⟨⟨c, arguments⟩, z, hprepare, h⟩ := bind_eq_ok.mp h
  obtain ⟨process, _, hstart, h⟩ := bind_eq_ok.mp h
  cases h
  obtain ⟨path, rfl, harguments⟩ := prepare_eq_ok hprepare
  obtain ⟨hprocess, hscene, heffects⟩ := start_eq_ok hstart
  obtain ⟨e, ⟨_, he, -⟩, hz⟩ := adds_prepare id name config x
  rw [hprepare] at hz
  have hz : z.effects = x.effects ++ e := hz
  rw [hscene]
  refine ⟨⟨path, rfl, harguments⟩, hprocess, ?_, ?_⟩
  · rw [heffects, hz]
    simp [he.starts_eq]
  · rw [heffects, hz]
    simp [he.started_eq]

/-- **A launch that does not arrive** has started no process, and has tried to only if it was the
start that failed. -/
theorem launch_eq_error {halt : Halt} (h : launch id name config x = .error halt y) :
    y.effects.started = x.effects.started ∧ (y.effects.starts = x.effects.starts ∨
      ∃ arguments failure, y.effects.starts = x.effects.starts ++ [arguments] ∧
        halt = .failed (.process failure)) := by
  obtain ⟨e, ⟨_, he, -⟩, hadds⟩ := adds_prepare id name config x
  rcases bind_eq_error.mp h with hprepare | ⟨⟨c, arguments⟩, z, hprepare, h⟩
  · rw [hprepare] at hadds
    have hy : y.effects = x.effects ++ e := hadds
    exact ⟨by simp [hy, he.started_eq], .inl (by simp [hy, he.starts_eq])⟩
  · rw [hprepare] at hadds
    have hz : z.effects = x.effects ++ e := hadds
    rcases bind_eq_error.mp h with hstart | ⟨_, _, -, h⟩
    · obtain ⟨⟨failure, rfl⟩, hy⟩ := start_eq_error hstart
      exact ⟨by simp [hy, hz, he.started_eq],
        .inr ⟨arguments, failure, by simp [hy, hz, he.starts_eq], rfl⟩⟩
    · cases h

end Journey

end Capsule
