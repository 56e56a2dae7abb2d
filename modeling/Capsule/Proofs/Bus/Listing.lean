import Capsule.Proofs.Bus.Variants
import Capsule.Preparation
import Mathlib.Data.List.Forall2
import Mathlib.Tactic.ByContra

/-!
# Transfers on the wire

A transfer is known by its number. The bus gives it away once, in the reply to the call that starts
the transfer, and from then on it stands in the first column of a row, for as long as the transfer
is going on. A watch that lost a row or took one number for another would end too early, or never.

So nothing is left out here. Of a bag of properties what cannot be read is dropped; a list of
transfers with one row that cannot be read is no list, and the row is shown. `Reply.Tells` is what
a row must be, column by column, and `Reply.IsMalformed` is each way of not being that; that there
is no third kind of row is `Reply.isMalformed_or_tells`.

Behind the fifth column a row may say anything. The bus puts the path of the transfer's object
there, which nobody looks at.

## Main definitions

* `Reply.Tells`, `Reply.IsMalformed`: a row that is a transfer, and a row that is none
* `Reply.listing`, `Reply.pulled`: replies as the bus writes them

## Main results

* `Reply.transfers_eq_ok_iff`, `Reply.transfers_eq_error_iff`: all rows are read, or the first
  malformed one is shown
* `Reply.started_eq_ok_iff`: the reply to a pull
* `Reply.transfers_exact`: both, with what is written, and the number that is watched
-/

namespace Capsule

/-! ### Lists of what may fail -/

/-- A list is read if each of its items is. -/
theorem List.mapM_eq_ok_iff {ε α β : Type} {f : α → Except ε β} {as : List α} {bs : List β} :
    as.mapM f = .ok bs ↔ List.Forall₂ (fun a b => f a = .ok b) as bs := by
  induction as generalizing bs with
  | nil => cases bs <;> simp [pure, Except.pure]
  | cons a as ih =>
    rw [List.mapM_cons, Except.bind_eq_ok_iff]
    constructor
    · rintro ⟨b, hb, h⟩
      obtain ⟨cs, hcs, h⟩ := Except.bind_eq_ok_iff.mp h
      cases h
      exact .cons hb (ih.mp hcs)
    · rintro (_ | ⟨hb, hbs⟩)
      exact ⟨_, hb, Except.bind_eq_ok_iff.mpr ⟨_, ih.mpr hbs, rfl⟩⟩

/-- The first item that is not read is what is wrong with a list. -/
theorem List.mapM_eq_error_iff {ε α β : Type} {f : α → Except ε β} {as : List α} {e : ε} :
    as.mapM f = .error e ↔ ∃ before a behind, as = before ++ a :: behind ∧
      (∀ b ∈ before, ∃ c, f b = .ok c) ∧ f a = .error e := by
  induction as with
  | nil => simp [pure, Except.pure]
  | cons a as ih =>
    rw [List.mapM_cons]
    cases ha : f a with
    | error e' =>
      show Except.error e' = .error e ↔ _
      constructor
      · rintro ⟨⟩
        exact ⟨[], a, as, rfl, by simp, ha⟩
      · rintro ⟨before, x, behind, heq, hbefore, hx⟩
        cases before with
        | nil =>
          obtain ⟨rfl, -⟩ := List.cons.inj heq
          cases ha.symm.trans hx
          rfl
        | cons b before =>
          obtain ⟨rfl, -⟩ := List.cons.inj heq
          obtain ⟨c, hc⟩ := hbefore a List.mem_cons_self
          cases ha.symm.trans hc
    | ok c =>
      have hrest : (Except.ok c >>= fun b => as.mapM f >>= fun bs => pure (b :: bs)) = .error e ↔
          as.mapM f = .error e := by
        show (as.mapM f >>= fun bs => pure (c :: bs)) = .error e ↔ _
        cases as.mapM f <;> simp [bind, Except.bind, pure, Except.pure]
      rw [hrest, ih]
      constructor
      · rintro ⟨before, x, behind, rfl, hbefore, hx⟩
        exact ⟨a :: before, x, behind, rfl, List.forall_mem_cons.mpr ⟨⟨c, ha⟩, hbefore⟩, hx⟩
      · rintro ⟨before, x, behind, heq, hbefore, hx⟩
        cases before with
        | nil =>
          obtain ⟨rfl, -⟩ := List.cons.inj heq
          cases ha.symm.trans hx
        | cons b before =>
          obtain ⟨-, rfl⟩ := List.cons.inj heq
          exact ⟨before, x, behind, rfl, fun b hb => hbefore b (List.mem_cons_of_mem _ hb), hx⟩

namespace Reply

/-! ### Rows -/

/-- A column tells a progress: it is that number, or none at all and the progress is not known. -/
inductive TellsProgress : Json → Double → Prop
  | number (n : Number) : TellsProgress (.number n) n.toDouble
  | unknown {column : Json} (no_number : ∀ n, column ≠ .number n) : TellsProgress column .nan

/-- A row tells a transfer: its first five columns are the transfer's number, its three texts and
its progress. -/
inductive Tells : Json → Transfer → Prop
  | intro (id : UInt32) (kind remote localName : String) {column : Json} {progress : Double}
      (h : TellsProgress column progress) (more : List Json) :
      Tells (.array (.ofNat id.toNat :: .string kind :: .string remote :: .string localName ::
        column :: more)) ⟨id, progress, kind, remote, localName⟩

/-- A row that is no transfer. -/
inductive IsMalformed (row : Json) : Prop
  | noArray (h : ∀ columns, row ≠ .array columns)
  | short {columns : List Json} (h : row = .array columns) (lt : columns.length < 5)
  /-- The first column is no integer of the range. -/
  | number {columns : List Json} (h : row = .array columns)
      (foreign : ∀ n < 2 ^ 32, columns[0]? ≠ some (.ofNat n))
  /-- One of the next three columns is no text. -/
  | text {columns : List Json} {position : Nat} (h : row = .array columns)
      (among : position ∈ [1, 2, 3]) (foreign : ∀ s, columns[position]? ≠ some (.string s))

variable {row reply : Json} {t : Transfer} {ts : List Transfer} {e : Error}

theorem tellsProgress_iff {column : Json} {d : Double} :
    TellsProgress column d ↔ column.doubleOrNaN = d := by
  constructor
  · intro h
    cases h with
    | number n => rfl
    | unknown no_number =>
      cases column with
      | number n => exact absurd rfl (no_number n)
      | _ => rfl
  · rintro rfl
    cases column with
    | number n => exact .number n
    | _ => exact .unknown nofun

/-- A row is read as the transfer that it tells. -/
theorem transfer?_eq_some_iff : transfer? row = some t ↔ Tells row t := by
  simp only [transfer?, Option.bind_eq_bind, Option.bind_eq_some_iff, Option.pure_def,
    Option.some.injEq, item?, Json.items?_eq_some_iff, Json.uint32?_eq_some_iff,
    Json.text?_eq_some_iff]
  constructor
  · rintro ⟨id, ⟨_, ⟨columns, rfl, h0⟩, rfl⟩, kind, ⟨_, ⟨_, ⟨⟩, h1⟩, rfl⟩, remote,
      ⟨_, ⟨_, ⟨⟩, h2⟩, rfl⟩, localName, ⟨_, ⟨_, ⟨⟩, h3⟩, rfl⟩, progress, ⟨_, ⟨⟩, h4⟩, rfl⟩
    match columns, h0, h1, h2, h3, h4 with
    | _ :: _ :: _ :: _ :: _ :: more, rfl, rfl, rfl, rfl, rfl =>
      exact .intro id kind remote localName (tellsProgress_iff.mpr rfl) more
  · rintro ⟨id, kind, remote, localName, h, more⟩
    refine ⟨_, ⟨_, ⟨_, rfl, rfl⟩, rfl⟩, _, ⟨_, ⟨_, rfl, rfl⟩, rfl⟩, _, ⟨_, ⟨_, rfl, rfl⟩, rfl⟩, _,
      ⟨_, ⟨_, rfl, rfl⟩, rfl⟩, _, ⟨_, rfl, rfl⟩, ?_⟩
    rw [tellsProgress_iff.mp h]

/-- A malformed row tells nothing. -/
theorem not_tells_of_isMalformed (h : IsMalformed row) : ¬ Tells row t := by
  rintro ⟨id, kind, remote, localName, -, more⟩
  cases h with
  | noArray h => exact h _ rfl
  | short h lt =>
    cases h
    simp at lt
    omega
  | number h foreign =>
    cases h
    exact foreign _ id.toNat_lt rfl
  | text h among foreign =>
    cases h
    simp only [List.mem_cons, List.not_mem_nil, or_false] at among
    rcases among with rfl | rfl | rfl <;> exact foreign _ rfl

/-- Every row is a transfer or malformed. -/
theorem isMalformed_or_tells (row : Json) : IsMalformed row ∨ ∃ t, Tells row t := by
  by_contra! ⟨hrow, hno⟩
  have harray : ∃ columns, row = .array columns := by
    by_contra! h
    exact hrow (.noArray h)
  obtain ⟨columns, rfl⟩ := harray
  have hlength : 5 ≤ columns.length := by
    by_contra! h
    exact hrow (.short rfl h)
  have hnumber : ∃ n < 2 ^ 32, columns[0]? = some (.ofNat n) := by
    by_contra! h
    exact hrow (.number rfl h)
  have htext : ∀ position ∈ [1, 2, 3], ∃ s, columns[position]? = some (.string s) := by
    intro position hp
    by_contra! h
    exact hrow (.text rfl hp h)
  obtain ⟨n, hn, h0⟩ := hnumber
  obtain ⟨kind, h1⟩ := htext 1 (by simp)
  obtain ⟨remote, h2⟩ := htext 2 (by simp)
  obtain ⟨localName, h3⟩ := htext 3 (by simp)
  have hcolumns : ∃ c0 c1 c2 c3 progress more,
      columns = c0 :: c1 :: c2 :: c3 :: progress :: more :=
    match columns, hlength with
    | c0 :: c1 :: c2 :: c3 :: progress :: more, _ => ⟨c0, c1, c2, c3, progress, more, rfl⟩
  obtain ⟨c0, c1, c2, c3, progress, more, rfl⟩ := hcolumns
  obtain rfl : c0 = .ofNat (UInt32.ofNat n).toNat := by
    rw [UInt32.toNat_ofNat_of_lt' hn]
    exact Option.some.inj h0
  obtain rfl : c1 = .string kind := Option.some.inj h1
  obtain rfl : c2 = .string remote := Option.some.inj h2
  obtain rfl : c3 = .string localName := Option.some.inj h3
  exact hno _ (.intro _ kind remote localName (tellsProgress_iff.mpr rfl) more)

theorem transferRow_eq_ok_iff : transferRow row = .ok t ↔ Tells row t := by
  rw [transferRow, ← transfer?_eq_some_iff]
  cases transfer? row <;> simp [unexpected]

theorem transferRow_eq_error_iff :
    transferRow row = .error e ↔ IsMalformed row ∧ e = .bus (.unexpected "transfer" row) := by
  rw [transferRow]
  cases h : transfer? row with
  | some t =>
    have htells := transfer?_eq_some_iff.mp h
    simp only [reduceCtorEq, false_iff, not_and]
    exact fun hrow => absurd htells (not_tells_of_isMalformed hrow)
  | none =>
    have hrow : IsMalformed row := by
      refine (isMalformed_or_tells row).resolve_right ?_
      rintro ⟨t, ht⟩
      cases h.symm.trans (transfer?_eq_some_iff.mpr ht)
    simp [unexpected, hrow, eq_comm]

/-! ### Lists of transfers -/

/-- A reply gives a value out as its first argument. -/
def Gives (reply value : Json) : Prop :=
  ∃ more, reply.member? "data" = some (.array (value :: more))

theorem firstArgument?_eq_some_iff {value : Json} :
    firstArgument? reply = some value ↔ Gives reply value := by
  simp only [firstArgument?, item?, Gives, Option.bind_eq_bind, Option.bind_eq_some_iff,
    Json.items?_eq_some_iff]
  constructor
  · rintro ⟨_, hdata, items, rfl, hitem⟩
    obtain ⟨more, rfl⟩ : ∃ more, items = value :: more := by
      cases items with
      | nil => cases hitem
      | cons x more => exact ⟨more, by rw [Option.some.inj hitem]⟩
    exact ⟨more, hdata⟩
  · rintro ⟨more, hdata⟩
    exact ⟨_, hdata, _, rfl, rfl⟩

theorem rows_eq_some_iff {rows : List Json} :
    (firstArgument? reply).bind Json.items? = some rows ↔ Gives reply (.array rows) := by
  simp [Option.bind_eq_some_iff, Json.items?_eq_some_iff, firstArgument?_eq_some_iff]

theorem transfers_of_gives {rows : List Json} (h : Gives reply (.array rows)) :
    transfers reply = rows.mapM transferRow := by
  rw [transfers, rows_eq_some_iff.mpr h]

theorem transfers_of_not_gives (h : ∀ rows, ¬ Gives reply (.array rows)) :
    transfers reply = .error (.bus (.unexpected "ListTransfers" reply)) := by
  have hnone : (firstArgument? reply).bind Json.items? = none :=
    Option.eq_none_iff_forall_ne_some.mpr fun rows hrows => h rows (rows_eq_some_iff.mp hrows)
  rw [transfers, hnone]
  rfl

/-- **All rows are read**, each as the transfer that it tells. -/
theorem transfers_eq_ok_iff :
    transfers reply = .ok ts ↔ ∃ rows, Gives reply (.array rows) ∧ List.Forall₂ Tells rows ts := by
  by_cases h : ∃ rows, Gives reply (.array rows)
  · obtain ⟨rows, hrows⟩ := h
    rw [transfers_of_gives hrows, List.mapM_eq_ok_iff]
    simp only [transferRow_eq_ok_iff]
    refine ⟨fun hts => ⟨rows, hrows, hts⟩, ?_⟩
    rintro ⟨rows', hrows', hts⟩
    have heq := (rows_eq_some_iff.mpr hrows).symm.trans (rows_eq_some_iff.mpr hrows')
    exact Option.some.inj heq ▸ hts
  · have hno : ∀ rows, ¬ Gives reply (.array rows) := fun rows hrows => h ⟨rows, hrows⟩
    rw [transfers_of_not_gives hno]
    simp [hno]

/-- **The first malformed row is shown**, or the reply where it has no rows. -/
theorem transfers_eq_error_iff :
    transfers reply = .error e ↔
      ((∀ rows, ¬ Gives reply (.array rows)) ∧ e = .bus (.unexpected "ListTransfers" reply)) ∨
      ∃ before row behind, Gives reply (.array (before ++ row :: behind)) ∧
        (∀ r ∈ before, ¬ IsMalformed r) ∧ IsMalformed row ∧
          e = .bus (.unexpected "transfer" row) := by
  by_cases h : ∃ rows, Gives reply (.array rows)
  · obtain ⟨rows, hrows⟩ := h
    rw [transfers_of_gives hrows, List.mapM_eq_error_iff]
    have hread : ∀ r, (∃ t, transferRow r = .ok t) ↔ ¬ IsMalformed r := by
      intro r
      simp only [transferRow_eq_ok_iff]
      refine ⟨?_, (isMalformed_or_tells r).resolve_left⟩
      rintro ⟨t, ht⟩ hr
      exact not_tells_of_isMalformed hr ht
    simp only [hread, transferRow_eq_error_iff]
    constructor
    · rintro ⟨before, row, behind, rfl, hbefore, hrow⟩
      exact .inr ⟨before, row, behind, hrows, hbefore, hrow⟩
    · rintro (⟨hno, -⟩ | ⟨before, row, behind, hrows', hbefore, hrow⟩)
      · exact absurd hrows (hno rows)
      · have heq := (rows_eq_some_iff.mpr hrows).symm.trans (rows_eq_some_iff.mpr hrows')
        exact ⟨before, row, behind, Option.some.inj heq, hbefore, hrow⟩
  · have hno : ∀ rows, ¬ Gives reply (.array rows) := fun rows hrows => h ⟨rows, hrows⟩
    rw [transfers_of_not_gives hno]
    simp [hno, eq_comm]

/-! ### The reply to a pull -/

/-- A transfer that has been started is its number and its path, and no number is wrapped. -/
theorem started_eq_ok_iff {st : StartedTransfer} :
    started reply = .ok st ↔ ∃ more, reply.member? "data" =
      some (.array (.ofNat st.id.toNat :: .string st.path :: more)) := by
  have hitems : ∀ (st : StartedTransfer),
      ((reply.member? "data").bind (item? · 0)).bind Json.uint32? = some st.id ∧
        ((reply.member? "data").bind (item? · 1)).bind Json.text? = some st.path ↔
      ∃ more, reply.member? "data" =
        some (.array (.ofNat st.id.toNat :: .string st.path :: more)) := by
    intro st
    simp only [Option.bind_eq_some_iff, item?, Option.bind_eq_bind, Json.items?_eq_some_iff,
      Json.uint32?_eq_some_iff, Json.text?_eq_some_iff]
    constructor
    · rintro ⟨⟨_, ⟨_, hdata, items, rfl, h0⟩, rfl⟩, _, ⟨_, hdata', _, rfl, h1⟩, rfl⟩
      cases hdata.symm.trans hdata'
      match items, h0, h1 with
      | _ :: _ :: more, rfl, rfl => exact ⟨more, hdata⟩
    · rintro ⟨more, hdata⟩
      exact ⟨⟨_, ⟨_, hdata, _, rfl, rfl⟩, rfl⟩, _, ⟨_, hdata, _, rfl, rfl⟩, rfl⟩
  rw [← hitems st, started]
  obtain ⟨id, path⟩ := st
  cases ((reply.member? "data").bind (item? · 0)).bind Json.uint32? <;>
    cases ((reply.member? "data").bind (item? · 1)).bind Json.text? <;> simp [unexpected]

theorem started_eq_error_iff :
    started reply = .error e ↔
      (∀ st, started reply ≠ .ok st) ∧ e = .bus (.unexpected "pull" reply) := by
  rw [started]
  cases ((reply.member? "data").bind (item? · 0)).bind Json.uint32? <;>
    cases ((reply.member? "data").bind (item? · 1)).bind Json.text? <;>
      simp [unexpected, eq_comm]

/-! ### Writing -/

/-- A row as the bus writes it, with the path of the transfer's object. -/
def rowOf (t : Transfer) (path : String) : Json :=
  .array [.ofNat t.id.toNat, .string t.kind, .string t.remote, .string t.localName,
    Property.doubleData t.progress, .string path]

/-- The reply that lists transfers, each with the path of its object. -/
def listing (ts : List (Transfer × String)) : Json :=
  .object [("data", .array [.array (ts.map fun t => rowOf t.1 t.2)]), ("type", .string "a(usssdo)")]

/-- The reply to a pull, with what is given away as the number. -/
def pulled (id : Json) (path : String) : Json :=
  .object [("data", .array [id, .string path]), ("type", .string "uo")]

/-- The same transfer, but any not-a-number is the one that stands for "not known". -/
def known (t : Transfer) : Transfer :=
  { t with progress := if t.progress.isNaN then .nan else t.progress }

/-- What is written tells the transfer, unless its progress is infinite. -/
theorem tells_rowOf (h : t.progress.isInfinite = false) (path : String) :
    Tells (rowOf t path) (known t) := by
  refine .intro t.id t.kind t.remote t.localName (tellsProgress_iff.mpr ?_) [.string path]
  rw [Property.doubleData]
  cases hnan : t.progress.isNaN with
  | true => simp [Json.doubleOrNaN, Json.number?]
  | false => simp [h, Json.doubleOrNaN, Json.number?, Number.toDouble]

theorem gives_listing (ts : List (Transfer × String)) :
    Gives (listing ts) (.array (ts.map fun t => rowOf t.1 t.2)) := ⟨[], rfl⟩

/-- What is written is read. -/
theorem transfers_listing {ts : List (Transfer × String)}
    (h : ∀ t ∈ ts, t.1.progress.isInfinite = false) :
    transfers (listing ts) = .ok (ts.map fun t => known t.1) := by
  refine transfers_eq_ok_iff.mpr ⟨_, gives_listing ts, ?_⟩
  rw [List.forall₂_map_left_iff, List.forall₂_map_right_iff]
  exact List.forall₂_same.mpr fun t ht => tells_rowOf (h t ht) t.2

theorem started_pulled_iff {id : Json} {path : String} {st : StartedTransfer} :
    started (pulled id path) = .ok st ↔ id = .ofNat st.id.toNat ∧ path = st.path := by
  rw [started_eq_ok_iff]
  constructor
  · rintro ⟨more, h⟩
    cases h
    exact ⟨rfl, rfl⟩
  · rintro ⟨rfl, rfl⟩
    exact ⟨[], rfl⟩

/-! ### The number that is watched -/

/-- A row bears the number of the transfer that it tells in its first column, and no other. -/
theorem id_eq_iff_of_tells (h : Tells row t) (id : UInt32) :
    t.id = id ↔ ∃ columns, row = .array (.ofNat id.toNat :: columns) := by
  obtain ⟨id', kind, remote, localName, -, more⟩ := h
  constructor
  · rintro rfl
    exact ⟨_, rfl⟩
  · rintro ⟨columns, hrow⟩
    have hnumber : (id'.toNat : Int) = id.toNat := by
      injection hrow with hrow
      injection hrow with hid
      injection hid with hid
      exact Number.integer.inj hid
    exact UInt32.toNat_inj.mp (Int.ofNat_inj.mp hnumber)

/-- No row of a list bears a number if no transfer of it does. -/
theorem forall_ne_iff_of_tells {rows : List Json} (h : List.Forall₂ Tells rows ts) (id : UInt32) :
    (∀ t ∈ ts, t.id ≠ id) ↔ ∀ columns, Json.array (.ofNat id.toNat :: columns) ∉ rows := by
  induction h with
  | nil => simp
  | @cons row t rows ts hrow _ ih =>
    rw [List.forall_mem_cons, ih, Ne, id_eq_iff_of_tells hrow]
    simp only [List.mem_cons, not_or, not_exists, forall_and, eq_comm]

theorem judge_eq_over_iff (id : UInt32) :
    Watch.judge id (.ok ts) = .over ↔ ∀ t ∈ ts, t.id ≠ id := by
  rw [Watch.judge]
  cases hfind : ts.find? (·.id == id) with
  | none => simpa using hfind
  | some t =>
    have hid : t.id = id := by simpa using List.find?_some hfind
    simp only [reduceCtorEq, false_iff, not_forall, not_not]
    exact ⟨t, List.mem_of_find?_eq_some hfind, hid⟩

/-- **The number that is given away is the number that is watched.** Where a pull gives away a word,
a watch follows that is over when no row of a list bears that number; and where it gives away
anything else, no watch follows. -/
theorem watched_of_pulled (host : Host) (now : Nat) (config : Config) (request : PullRequest)
    (number : Json) (path : String) :
    let a := Preparation.resume host now ⟨config, .pulling request⟩
      (.pulled (started (pulled number path)))
    (∃ watch : Watch, a.status = .waiting ⟨config, .pausing watch⟩ ∧
        number = .ofNat watch.id.toNat ∧ ∀ reply ts rows, transfers reply = .ok ts →
          Gives reply (.array rows) → (Watch.judge watch.id (.ok ts) = .over ↔
            ∀ columns, Json.array (number :: columns) ∉ rows)) ∨
      (∀ n < 2 ^ 32, number ≠ .ofNat n) ∧
        a.status = .failed (.bus (.unexpected "pull" (pulled number path))) := by
  intro a
  cases h : started (pulled number path) with
  | ok st =>
    have hstatus : a.status = .waiting ⟨config, .pausing (.start st.id request.name now)⟩ := by
      simp only [a, h]
      rfl
    have hnumber : number = .ofNat st.id.toNat := (started_pulled_iff.mp h).1
    refine .inl ⟨_, hstatus, hnumber, fun reply ts rows hts hrows => ?_⟩
    obtain ⟨rows', hrows', htells⟩ := transfers_eq_ok_iff.mp hts
    obtain rfl : rows = rows' :=
      Option.some.inj ((rows_eq_some_iff.mpr hrows).symm.trans (rows_eq_some_iff.mpr hrows'))
    rw [hnumber]
    exact (judge_eq_over_iff st.id).trans (forall_ne_iff_of_tells htells st.id)
  | error e =>
    have hstatus : a.status = .failed e := by
      simp only [a, h]
      rfl
    obtain ⟨hno, rfl⟩ := started_eq_error_iff.mp h
    refine .inr ⟨?_, hstatus⟩
    rintro n hn rfl
    have hid : Json.ofNat n = .ofNat (UInt32.ofNat n).toNat := by
      rw [UInt32.toNat_ofNat_of_lt' hn]
    exact hno ⟨_, path⟩ (started_pulled_iff.mpr ⟨hid, rfl⟩)

/-- **Transfers are read exactly, or not at all.** A list is read if its reply gives rows of which
each tells a transfer, and then it is the list of these in the order of the rows; otherwise it fails
and shows the first malformed row, or the whole reply if that gives no rows. What is written of
transfers, none of them of infinite progress, is read back. The reply to a pull is read as the
number and the path that it begins with; and the number that it gives away, and no other, is the one
that is looked for in the rows of a list. -/
theorem transfers_exact :
    (∀ reply ts, transfers reply = .ok ts ↔
      ∃ rows, Gives reply (.array rows) ∧ List.Forall₂ Tells rows ts) ∧
    (∀ reply e, transfers reply = .error e ↔
      ((∀ rows, ¬ Gives reply (.array rows)) ∧ e = .bus (.unexpected "ListTransfers" reply)) ∨
      ∃ before row behind, Gives reply (.array (before ++ row :: behind)) ∧
        (∀ r ∈ before, ¬ IsMalformed r) ∧ IsMalformed row ∧
          e = .bus (.unexpected "transfer" row)) ∧
    (∀ row, (Error.bus (.unexpected "transfer" row)).message =
      "bus error: unexpected transfer reply: " ++ row.compact) ∧
    (∀ ts : List (Transfer × String), (∀ t ∈ ts, t.1.progress.isInfinite = false) →
      transfers (listing ts) = .ok (ts.map fun t => known t.1)) ∧
    (∀ (id : UInt32) path, started (pulled (.ofNat id.toNat) path) = .ok ⟨id, path⟩) ∧
    (∀ (n : Int) path, n < 0 ∨ 2 ^ 32 ≤ n → started (pulled (.ofInt n) path) =
      .error (.bus (.unexpected "pull" (pulled (.ofInt n) path)))) ∧
    ∀ host now config request number path,
      let a := Preparation.resume host now ⟨config, .pulling request⟩
        (.pulled (started (pulled number path)))
      (∃ watch : Watch, a.status = .waiting ⟨config, .pausing watch⟩ ∧
          number = .ofNat watch.id.toNat ∧ ∀ reply ts rows, transfers reply = .ok ts →
            Gives reply (.array rows) → (Watch.judge watch.id (.ok ts) = .over ↔
              ∀ columns, Json.array (number :: columns) ∉ rows)) ∨
        (∀ n < 2 ^ 32, number ≠ .ofNat n) ∧
          a.status = .failed (.bus (.unexpected "pull" (pulled number path))) := by
  refine ⟨fun _ _ => transfers_eq_ok_iff, fun _ _ => transfers_eq_error_iff, fun row => ?_,
    fun ts h => transfers_listing h, fun id path => started_pulled_iff.mpr ⟨rfl, rfl⟩,
    fun n path hn => started_eq_error_iff.mpr ⟨fun st hst => ?_, rfl⟩, ?_⟩
  · have hwords : "bus error: unexpected transfer reply: " =
        "bus error: " ++ ("unexpected " ++ "transfer" ++ " reply: ") := by decide
    rw [hwords, String.append_assoc]
    rfl
  · obtain ⟨hid, -⟩ := started_pulled_iff.mp hst
    have hid : n = st.id.toNat := Number.integer.inj (Json.number.inj hid)
    have hlt := st.id.toNat_lt
    omega
  · exact watched_of_pulled

/-- Two transfers are read back, one of unknown progress and with the last number that there is; the
number behind that is given away to nobody. -/
theorem transfers_exact_two :
    let ts : List (Transfer × String) := [
      (⟨7, ⟨0x3FE0000000000000⟩, "pull-tar", "https://example.com/d.tar", "debian"⟩,
        "/transfer/_7"),
      (⟨4294967295, .nan, "pull-raw", "https://example.com/f.raw", "fedora"⟩, "/transfer/_9")]
    transfers (listing ts) = .ok (ts.map (·.1)) ∧
      started (pulled (.ofInt 4294967296) "/transfer/_0") = .error
        (.bus (.unexpected "pull" (pulled (.ofInt 4294967296) "/transfer/_0"))) := by
  intro ts
  obtain ⟨-, -, -, hlisting, -, hpulled, -⟩ := transfers_exact
  have hfinite : ∀ t ∈ ts, t.1.progress.isInfinite = false := by decide
  exact ⟨hlisting ts hfinite, hpulled 4294967296 "/transfer/_0" (.inr (by decide))⟩

end Reply

end Capsule
