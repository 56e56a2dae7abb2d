import Capsule.Proofs.Config.Acceptance
import Mathlib.Data.List.Pairwise

/-!
# Documents by their members

An object is read member by member into one record, in one pass, and what was read is never looked
at again. So that the record depends on the members alone, and not on their order, is owed to two
things: each field writes a part of the record that no other field writes (`Field.Commutes`), and no
field is written twice. What is not a field is passed over, whatever its value is.

## The set of members

`Record.ofJson_eq_ok_iff` says what of an object counts: which fields its members give, no field
twice, and what comes of putting them into the defaults, in any order that one likes. The rest is
said of that. It is said of accepted documents only, since of two problems in a text the first is
reported, and which one is the first does depend on the order.

Texts of documents are those of the grammar, so an ignored value is any value at all. No other text
is accepted, whatever is broken in it and wherever that is.

## Main definitions

* `Field.Commutes`: two fields can be read in either order
* `Record.put?`: puts one member into a record
* `ReadsMembers`: a reader of documents goes by their members

## Main results

* `Record.ofJson_eq_ok_iff`: what of an object counts
* `Config.documents_by_members`: configurations and settings are read by their members
-/

namespace Capsule

open Json (ArrayText ObjectText)

/-- A reader of documents goes by the members of an object that have the given names, and by nothing
else. Documents are texts, and so are the values of members; the key of a member counts as the
characters that it stands for. -/
structure ReadsMembers {σ : Type} (read : List Char → Decoded σ) (default : σ)
    (names : List String) : Prop where
  /-- Members may come in any order. -/
  order {ms ms' : List (String × List Char)} {text text' : List Char} (h : ObjectText ms text)
    (h' : ObjectText ms' text') (perm : ms.Perm ms') (s : σ) :
    read text = .ok s ↔ read text' = .ok s
  /-- A member with another name makes no difference, whatever its value is. -/
  unknown {before behind : List (String × List Char)} {m : String × List Char}
    {text text' : List Char} (h : ObjectText (before ++ m :: behind) text)
    (h' : ObjectText (before ++ behind) text') (other : m.1 ∉ names) (s : σ) :
    read text = .ok s ↔ read text' = .ok s
  /-- A member that alone says nothing but the default can be left out. -/
  left_out {before behind : List (String × List Char)} {m : String × List Char}
    {text text' alone : List Char} (h : ObjectText (before ++ m :: behind) text)
    (h' : ObjectText (before ++ behind) text') (h'' : ObjectText [m] alone)
    (is_default : read alone = .ok default) (s : σ) (accepted : read text = .ok s) :
    read text' = .ok s
  /-- The values of the first members can be given without their names. -/
  array {vs : List (List Char)} {text text' : List Char} (h : ArrayText vs text)
    (length : vs.length ≤ names.length) (h' : ObjectText (names.zip vs) text') :
    read text = read text'
  /-- No member with one of the names is given twice. -/
  twice {before between behind : List (String × List Char)} {name : String} {v v' : List Char}
    {text : List Char}
    (h : ObjectText (before ++ (name, v) :: (between ++ (name, v') :: behind)) text)
    (known : name ∈ names) (s : σ) : read text ≠ .ok s
  /-- Nothing else is accepted. -/
  document {text : List Char} {s : σ} (accepted : read text = .ok s) :
    (∃ ms, ObjectText ms text) ∨ ∃ vs, vs.length ≤ names.length ∧ ArrayText vs text

variable {σ α β : Type}

/-! ### Fields -/

namespace Field

/-- Two fields can be read in either order. -/
def Commutes (f g : Field σ) : Prop :=
  ∀ d d' s, ((f.ofDoc d s).toOption.bind fun s => (g.ofDoc d' s).toOption) =
    (g.ofDoc d' s).toOption.bind fun s => (f.ofDoc d s).toOption

instance : Std.Symm (Commutes (σ := σ)) := ⟨fun _ _ h d d' s => (h d' d s).symm⟩

/-- Fields of different parts can be read in either order. -/
theorem commutes_of {name name' : String} {codec : Codec α} {codec' : Codec β} {part : Part σ α}
    {part' : Part σ β} (h : ∀ a b s, part'.set b (part.set a s) = part.set a (part'.set b s)) :
    (Field.of name codec part).Commutes (.of name' codec' part') := by
  intro d d' s
  show (((codec.ofDoc d).map _).toOption.bind fun s => ((codec'.ofDoc d').map _).toOption) =
    ((codec'.ofDoc d').map _).toOption.bind fun s => ((codec.ofDoc d).map _).toOption
  cases codec.ofDoc d with
  | error p => cases codec'.ofDoc d' <;> rfl
  | ok a =>
    cases codec'.ofDoc d' with
    | error p => rfl
    | ok b => exact congrArg some (h a b s)

end Field

namespace Record

variable {r : Record σ}

theorem field?_eq_none_iff {name : String} :
    r.field? name = none ↔ name ∉ r.fields.map (·.name) := by
  simp [field?, List.find?_eq_none]

/-! ### Members in any order -/

/-- Puts a member into a record, if its value is one of the field with its name. -/
def put? (r : Record σ) (s? : Option σ) (m : String × Doc) : Option σ :=
  s?.bind fun s =>
    match r.field? m.1 with
    | none => some s
    | some f => (f.ofDoc m.2 s).toOption

/-- No field is given twice. -/
def Distinct (r : Record σ) {V : Type} (ms : List (String × V)) : Prop :=
  ms.Pairwise fun m m' => m.1 = m'.1 → r.field? m.1 = none

theorem put?_of_unknown {m : String × Doc} (h : r.field? m.1 = none) (s? : Option σ) :
    r.put? s? m = s? := by
  cases s? <;> simp [put?, h]

theorem foldl_put?_none (ms : List (String × Doc)) : ms.foldl r.put? none = none := by
  induction ms with
  | nil => rfl
  | cons m ms ih => exact ih

/-- Two members that are not of one field can change places. -/
theorem put?_comm (hcommute : r.fields.Pairwise Field.Commutes) {m m' : String × Doc}
    (h : m.1 = m'.1 → r.field? m.1 = none) (s? : Option σ) :
    r.put? (r.put? s? m) m' = r.put? (r.put? s? m') m := by
  cases s? with
  | none => rfl
  | some s =>
    cases hf : r.field? m.1 with
    | none => rw [put?_of_unknown hf, put?_of_unknown hf]
    | some f =>
      cases hg : r.field? m'.1 with
      | none => rw [put?_of_unknown hg, put?_of_unknown hg]
      | some g =>
        obtain ⟨hfmem, hfname⟩ := field?_eq_some hf
        obtain ⟨hgmem, hgname⟩ := field?_eq_some hg
        have hne : f ≠ g := by
          rintro rfl
          rw [h (hfname.symm.trans hgname)] at hf
          cases hf
        have hfg := hcommute.forall hfmem hgmem hne m.2 m'.2 s
        simpa [put?, hf, hg] using hfg

/-- The order of members does not matter for that. -/
theorem distinct_perm {V : Type} {ms ms' : List (String × V)} (hperm : ms.Perm ms') :
    r.Distinct ms ↔ r.Distinct ms' :=
  hperm.pairwise_iff fun h heq => heq ▸ h heq.symm

/-- **Members can be put into a record in any order.** -/
theorem foldl_put?_perm (hcommute : r.fields.Pairwise Field.Commutes)
    {ms ms' : List (String × Doc)} (hperm : ms.Perm ms') (hdistinct : r.Distinct ms)
    (s? : Option σ) : ms.foldl r.put? s? = ms'.foldl r.put? s? := by
  refine hperm.foldl_eq' (fun m hm m' hm' s? => ?_) s?
  by_cases hne : m = m'
  · rw [hne]
  · have hsymm : Std.Symm fun m m' : String × Doc => m.1 = m'.1 → r.field? m.1 = none :=
      ⟨fun m m' h heq => heq ▸ h heq.symm⟩
    exact put?_comm hcommute (hdistinct.forall hm hm' hne) s?

/-- Members are read if no field is given twice and each can be put into the record. -/
theorem ofMembers_eq_ok_iff {ms : List (String × Doc)}
    (hskip : ∀ m ∈ ms, Decode.skip m.2 = .ok ()) (seen : List String) (s t : σ) :
    (∃ seen', r.ofMembers seen s (ms.map fun m => (.text (.ok m.1), m.2)) = .ok (t, seen')) ↔
      r.Distinct ms ∧ (∀ m ∈ ms, m.1 ∈ seen → r.field? m.1 = none) ∧
        ms.foldl r.put? (some s) = some t := by
  induction ms generalizing seen s with
  | nil => simp [ofMembers, Distinct]
  | cons m ms ih =>
    obtain ⟨k, d⟩ := m
    obtain ⟨hd, hskip⟩ := List.forall_mem_cons.mp hskip
    have hkey : Decode.leaf (.ok k) = .ok k := rfl
    rw [List.map_cons, List.foldl_cons, Distinct, List.pairwise_cons, List.forall_mem_cons]
    simp only [ofMembers, hkey, bind, Except.bind]
    cases hf : r.field? k with
    | none =>
      simp only [hd, put?_of_unknown (m := (k, d)) hf, ih hskip, Distinct, implies_true, true_and]
    | some f =>
      simp only [reduceCtorEq, imp_false]
      by_cases hseen : k ∈ seen
      · simp [hseen]
      · have hput : r.put? (some s) (k, d) = (f.ofDoc d s).toOption := by
          simp only [put?, Option.bind_some, hf]
        rw [if_neg hseen, hput]
        cases hread : f.ofDoc d s with
        | error p => simp [Except.toOption, foldl_put?_none]
        | ok s' =>
          have hothers : (∀ m ∈ ms, m.1 ∈ k :: seen → r.field? m.1 = none) ↔
              (∀ m ∈ ms, ¬ k = m.1) ∧ ∀ m ∈ ms, m.1 ∈ seen → r.field? m.1 = none := by
            refine ⟨fun h => ⟨fun m hm hk => ?_, fun m hm hin => h m hm (.tail k hin)⟩,
              fun h m hm hin => ?_⟩
            · have hnone := h m hm (hk ▸ .head seen)
              rw [← hk, hf] at hnone
              cases hnone
            · rcases List.mem_cons.mp hin with hk | hin
              · exact absurd hk.symm (h.1 m hm)
              · exact h.2 m hm hin
          simp only [ih hskip, hothers, Except.toOption, Distinct, hseen, not_false_eq_true,
            true_and]
          tauto

/-! ### Documents -/

/-- The members of a document, with their values as they are read. -/
def readings (ms : List (String × List Char)) : List (String × Doc) :=
  ms.map fun m => (m.1, Doc.ofText m.2)

variable {ms : List (String × List Char)} {text : List Char}

theorem distinct_readings : r.Distinct (readings ms) ↔ r.Distinct ms := List.pairwise_map

/-- An object is read member by member. -/
theorem ofJson_objectText (hrequired : r.required = []) (h : ObjectText ms text) :
    r.ofJson text = (r.ofMembers [] r.default
      ((readings ms).map fun m => (.text (.ok m.1), m.2))).map (·.1) := by
  have hreadings : ((readings ms).map fun m => ((.text (.ok m.1), m.2) : Key × Doc)) =
      ms.map fun m => (.text (.ok m.1), Doc.ofText m.2) := List.map_map
  have hmissing : ∀ seen, r.missing? seen = none := fun seen => by simp [missing?, hrequired]
  rw [hreadings, ofJson, Decode.whole, Doc.read_objectText h]
  simp only [ofDoc, bind, Except.bind, Decode.ending, hmissing]
  cases r.ofMembers [] r.default (ms.map fun m => (.text (.ok m.1), Doc.ofText m.2)) <;> rfl

/-- **What of an object counts** is that no field is given twice, and what comes of putting the
members into the defaults. -/
theorem ofJson_eq_ok_iff (hrequired : r.required = []) (h : ObjectText ms text) {s : σ} :
    r.ofJson text = .ok s ↔
      r.Distinct ms ∧ (readings ms).foldl r.put? (some r.default) = some s := by
  have hskip : ∀ m ∈ readings ms, Decode.skip m.2 = .ok () := by
    rintro _ hreading
    obtain ⟨m, hm, rfl⟩ := List.mem_map.mp hreading
    exact Doc.skip_ofText (h.isValue m hm)
  have hread := ofMembers_eq_ok_iff (r := r) hskip [] r.default s
  rw [distinct_readings] at hread
  simp only [List.not_mem_nil, false_implies, implies_true, true_and] at hread
  rw [ofJson_objectText hrequired h, ← hread]
  cases r.ofMembers [] r.default ((readings ms).map fun m => (.text (.ok m.1), m.2)) with
  | error p => simp [Except.map]
  | ok p => simp [Except.map, Prod.ext_iff]

/-- An array is read item by item. -/
theorem ofJson_arrayText {vs : List (List Char)} (h : ArrayText vs text) :
    r.ofJson text = r.ofItems 0 r.default r.fields (vs.map Doc.ofText) .closed := by
  rw [ofJson, Decode.whole, Doc.read_arrayText h]
  simp only [ofDoc, bind, Except.bind]
  cases r.ofItems 0 r.default r.fields (vs.map Doc.ofText) .closed <;> rfl

/-- The items of an array are read like the members that have the names of their places. -/
theorem ofItems_eq_ofMembers (hrequired : r.required = [])
    (hnames : (r.fields.map (·.name)).Nodup) {fs gs : List (Field σ)} (hfields : r.fields = gs ++ fs)
    {ds : List Doc} (hlength : ds.length ≤ fs.length) {seen : List String}
    (hseen : ∀ k ∈ seen, k ∈ gs.map (·.name)) (n : Nat) (s : σ) :
    r.ofItems n s fs ds .closed = (r.ofMembers seen s
      (((fs.map (·.name)).zip ds).map fun m => (.text (.ok m.1), m.2))).map (·.1) := by
  induction ds generalizing fs gs seen n s with
  | nil => cases fs <;> simp [ofItems, ofMembers, Decode.closing, Decode.ending, hrequired] <;> rfl
  | cons d ds ih =>
    cases fs with
    | nil => cases hlength
    | cons f fs =>
      have hfield : r.field? f.name = some f := field?_of_mem hnames (by simp [hfields])
      have hfresh : f.name ∉ seen := by
        intro hin
        rw [hfields, List.map_append, List.nodup_append] at hnames
        exact hnames.2.2 _ (hseen _ hin) _ (List.mem_cons_self ..) rfl
      have hkey : Decode.leaf (.ok f.name) = .ok f.name := rfl
      simp only [List.map_cons, List.zip_cons_cons, ofItems, ofMembers, hkey, hfield, bind,
        Except.bind, if_neg hfresh]
      cases f.ofDoc d s with
      | error p => rfl
      | ok s' =>
        have hfields' : r.fields = (gs ++ [f]) ++ fs := by simp [hfields]
        refine ih hfields' (Nat.le_of_succ_le_succ hlength) ?_ _ s'
        intro k hk
        rcases List.mem_cons.mp hk with rfl | hk
        · simp
        · simp only [List.map_append, List.mem_append]
          exact .inl (hseen k hk)

/-- **A record is read by its members**, if its fields can be read in any order, and each reads its
value through. -/
theorem readsMembers (hrequired : r.required = []) (hnames : (r.fields.map (·.name)).Nodup)
    (hcommute : r.fields.Pairwise Field.Commutes) (hr : r.ReadsThrough) :
    ReadsMembers r.ofJson r.default (r.fields.map (·.name)) where
  order {ms ms' _ _} h h' perm s := by
    rw [ofJson_eq_ok_iff hrequired h, ofJson_eq_ok_iff hrequired h', distinct_perm perm]
    refine and_congr_right fun hdistinct => ?_
    have hreadings : (readings ms').Perm (readings ms) := perm.symm.map _
    rw [foldl_put?_perm hcommute hreadings (distinct_readings.mpr hdistinct)]
  unknown {before behind m _ _} h h' other s := by
    have hnone : r.field? m.1 = none := field?_eq_none_iff.mpr other
    have hdistinct : r.Distinct (before ++ m :: behind) ↔ r.Distinct (before ++ behind) := by
      rw [distinct_perm List.perm_middle, Distinct, List.pairwise_cons]
      simp only [hnone, implies_true, true_and, Distinct]
    rw [ofJson_eq_ok_iff hrequired h, ofJson_eq_ok_iff hrequired h', hdistinct, readings, readings,
      List.map_append, List.map_cons, List.map_append, List.foldl_append, List.foldl_cons,
      put?_of_unknown hnone, List.foldl_append]
  left_out {before behind m _ _ _} h h' h'' is_default s accepted := by
    rw [ofJson_eq_ok_iff hrequired h, distinct_perm List.perm_middle] at accepted
    rw [ofJson_eq_ok_iff hrequired h''] at is_default
    rw [ofJson_eq_ok_iff hrequired h']
    obtain ⟨hdistinct, hread⟩ := accepted
    -- The member is read first of all, and leaves the defaults as they are.
    have hfront : (readings (before ++ m :: behind)).Perm
        (readings (m :: (before ++ behind))) := List.perm_middle.map _
    rw [← foldl_put?_perm hcommute hfront.symm (distinct_readings.mpr hdistinct)] at hread
    refine ⟨(List.pairwise_cons.mp hdistinct).2, ?_⟩
    have hput : r.put? (some r.default) (m.1, Doc.ofText m.2) = some r.default := is_default.2
    rwa [readings, List.map_cons, List.foldl_cons, hput] at hread
  array {vs _ _} h length h' := by
    have hreadings : readings ((r.fields.map (·.name)).zip vs) =
        (r.fields.map (·.name)).zip (vs.map Doc.ofText) := (List.zip_map_right ..).symm
    have hlength : (vs.map Doc.ofText).length ≤ r.fields.length := by simpa using length
    rw [ofJson_arrayText h, ofJson_objectText hrequired h', hreadings]
    exact ofItems_eq_ofMembers hrequired hnames (List.nil_append _).symm hlength
      (List.forall_mem_nil _) 0 _
  twice {before between behind name v v' _} h known s accepted := by
    obtain ⟨hdistinct, -⟩ := (ofJson_eq_ok_iff hrequired h).mp accepted
    obtain ⟨-, hbehind, -⟩ := List.pairwise_append.mp hdistinct
    have hnone : r.field? name = none :=
      (List.pairwise_cons.mp hbehind).1 (name, v') (by simp) rfl
    exact field?_eq_none_iff.mp hnone known
  document accepted := by
    rw [List.length_map]
    exact exists_text_of_ofJson hr accepted

end Record

/-! ### Configurations and settings -/

/-- The names of a configuration's members, in the order of an array. -/
def Config.names : List String :=
  ["boot", "ephemeral", "process_two", "read_only", "user_namespacing", "command", "console",
   "image", "image_download", "machine", "pivot_root", "resolv_conf", "user", "volatile",
   "working_directory", "network_namespace_path", "bind", "bind_read_only", "environment",
   "properties"]

/-- The names of the members of settings, in the order of an array. -/
def Settings.names : List String :=
  ["describe_timeout_secs", "allow_image_download", "nspawn_binary"]

theorem Config.fields_commute : record.fields.Pairwise Field.Commutes := by
  -- No two of the fields write one part of the record.
  repeat' first
    | exact List.Pairwise.nil
    | exact List.forall_mem_nil _
    | refine List.pairwise_cons.mpr ⟨?_, ?_⟩
    | refine List.forall_mem_cons.mpr ⟨Field.commutes_of fun _ _ _ => rfl, ?_⟩

theorem Settings.fields_commute : record.fields.Pairwise Field.Commutes := by
  repeat' first
    | exact List.Pairwise.nil
    | exact List.forall_mem_nil _
    | refine List.pairwise_cons.mpr ⟨?_, ?_⟩
    | refine List.forall_mem_cons.mpr ⟨Field.commutes_of fun _ _ _ => rfl, ?_⟩

/-- **Documents mean the set of their known members.** A configuration has twenty members and
settings have three. Each can be given anywhere in an object, among any other members, or at its
place in an array, but not twice; and a member that is its default can be left out. Any members and
any values make such documents, and no other text is accepted. -/
theorem Config.documents_by_members :
    ReadsMembers Config.ofJson {} Config.names ∧ ReadsMembers Settings.ofJson {} Settings.names ∧
      Config.names.length = 20 ∧ Settings.names.length = 3 ∧
      (∀ ms : List (String × List Char), (∀ m ∈ ms, Json.IsValue m.2) →
        ∃ text, ObjectText ms text) ∧
      ∀ vs : List (List Char), (∀ v ∈ vs, Json.IsValue v) → ∃ text, ArrayText vs text :=
  ⟨Record.readsMembers rfl (by decide) Config.fields_commute Config.readsThrough,
    Record.readsMembers rfl (by decide) Settings.fields_commute Settings.readsThrough, rfl, rfl,
    fun _ => Json.exists_objectText, fun _ => Json.exists_arrayText⟩

end Capsule
