import Capsule.Record
import Mathlib.Data.List.Nodup

/-!
# One field of a record

A record is read field after field, into one state. This file says what becomes of a single field in
that: what it reads stays in its part of the record, whatever stands around it in the document, and
nothing but what it reads matters.

Nothing is assumed of the other fields but that they leave that part alone, so what is said here
holds as well of documents that are broken elsewhere, or in which other fields are given twice.

## Main definitions

* `Field.Keeps`: a field leaves a part of the record alone
* `Record.Owns`: a field has a part of its own
* `Record.Gives`, `Record.GivesNode`: a document gives a field
* `Record.Swaps`, `Record.SwapsNodes`: two documents differ in a field only

## Main results

* `Record.ofDoc_of_swaps`, `Record.ofYaml?_of_swapsNodes`: nothing but what a field reads matters
* `Record.Owns.get_ofDoc`, `Record.Owns.get_ofYaml?`: what it reads stays
* `Record.Owns.get_ofDoc_of_not_gives`, `Record.Owns.get_ofYaml?_of_not_gives`: where it is not
  given there is the default
-/

namespace Capsule

variable {σ α β : Type}

/-- A value of another type is not decoded. -/
theorem Decoded.mismatch_ne_ok {expected : String} {d : Doc} {a : α} :
    Decode.mismatch expected d ≠ .ok a := by
  cases d with
  | number reading =>
    cases reading with
    | error f => exact nofun
    | ok n => cases n <;> exact nofun
  | string reading => cases reading <;> exact nofun
  | null | bool | array | object | broken => exact nofun

/-! ### Parts -/

/-- Reading a field leaves a part of the record alone. -/
structure Field.Keeps (f : Field σ) (part : Part σ α) : Prop where
  ofDoc {d : Doc} {s s' : σ} (h : f.ofDoc d s = .ok s') : part.get s' = part.get s
  ofNode? {y : Yaml.Document} {n : Yaml.Node Nat} {s s' : σ} (h : f.ofNode? y n s = some s') :
    part.get s' = part.get s

theorem Field.keeps_of {name : String} {codec : Codec β} {other : Part σ β} {part : Part σ α}
    (h : ∀ b s, part.get (other.set b s) = part.get s) :
    (Field.of name codec other).Keeps part where
  ofDoc {d s s'} hread := by
    have hread : (codec.ofDoc d).map (other.set · s) = .ok s' := hread
    cases hd : codec.ofDoc d with
    | error p =>
      rw [hd] at hread
      cases hread
    | ok b =>
      rw [hd] at hread
      cases hread
      exact h b s
  ofNode? hread := by
    obtain ⟨b, -, rfl⟩ := Option.map_eq_some_iff.mp hread
    exact h b _

namespace Record

/-- A field has a part of the record of its own: it stands between others, all of which leave that
part alone. -/
structure Owns (r : Record σ) (name : String) (codec : Codec α) (part : Part σ α) : Prop where
  names : (r.fields.map (·.name)).Nodup
  get_set (a : α) (s : σ) : part.get (part.set a s) = a
  keeps : ∃ fs fs', r.fields = fs ++ .of name codec part :: fs' ∧ ∀ f ∈ fs ++ fs', f.Keeps part

variable {r : Record σ} {name : String} {codec : Codec α} {part : Part σ α} {f : Field σ}

/-- A field is found under its name, which no other has. -/
theorem field?_of_mem (hnames : (r.fields.map (·.name)).Nodup) {f : Field σ}
    (hf : f ∈ r.fields) : r.field? f.name = some f := by
  obtain ⟨title, initial, fields, required⟩ := r
  show fields.find? (·.name == f.name) = some f
  dsimp only at hnames hf
  induction fields with
  | nil => cases hf
  | cons g gs ih =>
    rw [List.map_cons, List.nodup_cons] at hnames
    rw [List.find?_cons]
    rcases List.mem_cons.mp hf with rfl | hf
    · rw [beq_self_eq_true]
    · have hne : g.name ≠ f.name := fun h => hnames.1 (h ▸ List.mem_map_of_mem hf)
      rw [beq_false_of_ne hne]
      exact ih hnames.2 hf

theorem field?_eq_some (h : r.field? name = some f) : f ∈ r.fields ∧ f.name = name := by
  refine ⟨List.mem_of_find?_eq_some h, ?_⟩
  simpa using List.find?_some h

namespace Owns

variable (ho : r.Owns name codec part)
include ho

theorem mem : .of name codec part ∈ r.fields := by
  obtain ⟨fs, fs', hfields, -⟩ := ho.keeps
  rw [hfields]
  exact List.mem_append_right _ (List.mem_cons_self ..)

theorem field?_eq : r.field? name = some (.of name codec part) := field?_of_mem ho.names ho.mem

theorem others (f : Field σ) (hf : f ∈ r.fields) (hne : f.name ≠ name) : f.Keeps part := by
  obtain ⟨fs, fs', hfields, hkeeps⟩ := ho.keeps
  rw [hfields] at hf
  rcases List.mem_cons.mp (List.perm_middle.mem_iff.mp hf) with rfl | hf
  · exact absurd rfl hne
  · exact hkeeps f hf

/-- The place of the field in the table is that of its name. -/
theorem exists_fields : ∃ fs fs', r.fields = fs ++ .of name codec part :: fs' ∧
    fs.length = r.fields.findIdx (·.name == name) ∧ ∀ f ∈ fs ++ fs', f.Keeps part := by
  obtain ⟨fs, fs', hfields, hkeeps⟩ := ho.keeps
  refine ⟨fs, fs', hfields, ?_, hkeeps⟩
  have hnames := ho.names
  rw [hfields, List.map_append, List.map_cons, List.nodup_middle, List.nodup_cons,
    List.mem_append, not_or] at hnames
  have hbefore : fs.findIdx (·.name == name) = fs.length := by
    rw [List.findIdx_eq_length]
    exact fun f hf => beq_false_of_ne fun h =>
      hnames.1.1 (h ▸ List.mem_map_of_mem (f := (·.name)) hf)
  rw [hfields, List.findIdx_append, hbefore, if_neg (Nat.lt_irrefl _), List.findIdx_cons]
  simp [Field.of]

theorem ofDoc_eq_ok {d : Doc} {s s' : σ} (h : (Field.of name codec part).ofDoc d s = .ok s') :
    ∃ a, codec.ofDoc d = .ok a ∧ part.get s' = a := by
  have h : (codec.ofDoc d).map (part.set · s) = .ok s' := h
  cases hd : codec.ofDoc d with
  | error p =>
    rw [hd] at h
    cases h
  | ok a =>
    rw [hd] at h
    cases h
    exact ⟨a, rfl, ho.get_set a s⟩

theorem ofNode?_eq_some {y : Yaml.Document} {n : Yaml.Node Nat} {s s' : σ}
    (h : (Field.of name codec part).ofNode? y n s = some s') :
    ∃ a, codec.ofNode? y n = some a ∧ part.get s' = a := by
  obtain ⟨a, ha, rfl⟩ := Option.map_eq_some_iff.mp h
  exact ⟨a, ha, ho.get_set a s⟩

end Owns

/-! ### JSON -/

/-- A document gives a field: under its name in an object, at its place in an array. -/
inductive Gives (r : Record σ) (name : String) (d : Doc) : Doc → Prop
  | member {members : List (Key × Doc)} (h : (.text (.ok name), d) ∈ members) (e : Ending) :
      Gives r name d (.object members e)
  | item {items : List Doc} (h : items[r.fields.findIdx (·.name == name)]? = some d) (e : Ending) :
      Gives r name d (.array items e)

/-- Two documents are alike, but that the one gives a field as `d` and the other as `d'`. -/
inductive Swaps (r : Record σ) (name : String) (d d' : Doc) : Doc → Doc → Prop
  | member (before behind : List (Key × Doc)) (e : Ending) :
      Swaps r name d d' (.object (before ++ (.text (.ok name), d) :: behind) e)
        (.object (before ++ (.text (.ok name), d') :: behind) e)
  | item {before : List Doc} (h : before.length = r.fields.findIdx (·.name == name))
      (behind : List Doc) (e : Ending) :
      Swaps r name d d' (.array (before ++ d :: behind) e) (.array (before ++ d' :: behind) e)

/-- Members are read one behind the other. -/
theorem ofMembers_append (seen : List String) (s : σ) (ms ms' : List (Key × Doc)) :
    r.ofMembers seen s (ms ++ ms') =
      (r.ofMembers seen s ms >>= fun p => r.ofMembers p.2 p.1 ms') := by
  induction ms generalizing seen s with
  | nil => rfl
  | cons m ms ih =>
    obtain ⟨key, d⟩ := m
    cases key with
    | other => rfl
    | text key =>
      rw [List.cons_append, ofMembers, ofMembers, bind_assoc]
      refine bind_congr fun k => ?_
      cases r.field? k with
      | none =>
        simp only [bind_assoc]
        exact bind_congr fun _ => ih seen s
      | some f =>
        dsimp only
        split
        · rfl
        · simp only [bind_assoc]
          exact bind_congr fun s => ih (k :: seen) s

/-- Items are read one behind the other, each by its field. -/
theorem ofItems_append {fs : List (Field σ)} {ds : List Doc} (h : ds.length = fs.length)
    (n : Nat) (s : σ) (fs' : List (Field σ)) (ds' : List Doc) (e : Ending) :
    r.ofItems n s (fs ++ fs') (ds ++ ds') e =
      ((fs.zip ds).foldlM (fun s p => p.1.ofDoc p.2 s) s >>= fun s =>
        r.ofItems (n + fs.length) s fs' ds' e) := by
  induction fs generalizing ds n s with
  | nil =>
    obtain rfl := List.length_eq_zero_iff.mp h
    rfl
  | cons f fs ih =>
    cases ds with
    | nil => cases h
    | cons d ds =>
      rw [List.cons_append, List.cons_append, ofItems, List.zip_cons_cons, List.foldlM_cons,
        bind_assoc]
      refine bind_congr fun s => ?_
      rw [ih (Nat.succ.inj h), List.length_cons, Nat.add_right_comm]
      rfl

/-- Reading members leaves a part alone that no field of theirs owns. -/
theorem get_ofMembers (hothers : ∀ f ∈ r.fields, f.name ≠ name → f.Keeps part)
    {seen seen' : List String} {s s' : σ} {ms : List (Key × Doc)}
    (hname : name ∈ seen ∨ ∀ d, (.text (.ok name), d) ∉ ms)
    (h : r.ofMembers seen s ms = .ok (s', seen')) : part.get s' = part.get s := by
  induction ms generalizing seen s with
  | nil =>
    cases h
    rfl
  | cons m ms ih =>
    obtain ⟨key, d⟩ := m
    have hrest : ∀ seen₁, seen ⊆ seen₁ → name ∈ seen₁ ∨ ∀ d, (.text (.ok name), d) ∉ ms :=
      fun seen₁ hseen => hname.imp (fun hn => hseen hn) fun hn d hd =>
        hn d (List.mem_cons_of_mem _ hd)
    cases key with
    | other => cases h
    | text key =>
      rw [ofMembers] at h
      obtain ⟨k, hk, h⟩ := Except.bind_eq_ok_iff.mp h
      cases hf : r.field? k with
      | none =>
        rw [hf] at h
        obtain ⟨_, -, h⟩ := Except.bind_eq_ok_iff.mp h
        exact ih (hrest seen (List.Subset.refl _)) h
      | some f =>
        rw [hf] at h
        dsimp only at h
        split at h
        · cases h
        · rename_i hseen
          obtain ⟨hmem, rfl⟩ := field?_eq_some hf
          obtain ⟨s₁, hread, h⟩ := Except.bind_eq_ok_iff.mp h
          have hne : f.name ≠ name := by
            rintro rfl
            rcases hname with hn | hn
            · exact hseen hn
            · cases key with
              | error => cases hk
              | ok k =>
                cases hk
                exact hn d (List.mem_cons_self ..)
          rw [ih (hrest _ (List.subset_cons_self ..)) h, (hothers f hmem hne).ofDoc hread]

/-- Reading items leaves a part alone that no field of theirs owns. -/
theorem get_ofItems {n : Nat} {s s' : σ} {fs : List (Field σ)} {ds : List Doc} {e : Ending}
    (hothers : ∀ f ∈ fs.take ds.length, f.Keeps part) (h : r.ofItems n s fs ds e = .ok s') :
    part.get s' = part.get s := by
  induction fs generalizing ds n s with
  | nil =>
    cases ds with
    | nil =>
      obtain ⟨_, -, h⟩ := Except.bind_eq_ok_iff.mp h
      cases h
      rfl
    | cons d ds => cases h
  | cons f fs ih =>
    cases ds with
    | nil =>
      obtain ⟨_, -, h⟩ := Except.bind_eq_ok_iff.mp h
      split at h
      · cases h
        rfl
      · cases h
    | cons d ds =>
      rw [List.length_cons, List.take_succ_cons, List.forall_mem_cons] at hothers
      obtain ⟨s₁, hread, h⟩ := Except.bind_eq_ok_iff.mp h
      rw [ih hothers.2 h, hothers.1.ofDoc hread]

/-- What is read of an object is what is read of its members. -/
theorem ofDoc_object_eq_ok {members : List (Key × Doc)} {e : Ending} {s : σ}
    (h : r.ofDoc (.object members e) = .ok s) :
    ∃ seen, r.ofMembers [] r.default members = .ok (s, seen) := by
  rw [ofDoc] at h
  obtain ⟨⟨s', seen⟩, hread, h⟩ := Except.bind_eq_ok_iff.mp h
  obtain ⟨_, -, h⟩ := Except.bind_eq_ok_iff.mp h
  split at h
  · cases h
    exact ⟨seen, hread⟩
  · cases h

/-- What is read of a text is what is read of its document. -/
theorem ofDoc_of_ofJson {text : List Char} {s : σ} (h : r.ofJson text = .ok s) :
    r.ofDoc (Doc.read text).1 = .ok s := by
  obtain ⟨s', hread, h⟩ := Except.bind_eq_ok_iff.mp h
  split at h
  · cases h
    exact hread
  · cases h

namespace Owns

variable (ho : r.Owns name codec part) {w w' d d' : Doc} {s : σ}
include ho

/-- A member is read once. -/
theorem ofMembers_cons (seen : List String) (s : σ) (d : Doc) (ms : List (Key × Doc)) :
    r.ofMembers seen s ((.text (.ok name), d) :: ms) =
      if name ∈ seen then .error (.duplicateField name)
      else (Field.of name codec part).ofDoc d s >>= fun s => r.ofMembers (name :: seen) s ms := by
  have hkey : Decode.leaf (.ok name) = .ok name := rfl
  simp only [ofMembers, hkey, bind, Except.bind, ho.field?_eq]

/-- **Nothing but what a field reads matters.** -/
theorem ofDoc_of_swaps (h : codec.ofDoc d = codec.ofDoc d') (hw : Swaps r name d d' w w') :
    r.ofDoc w = r.ofDoc w' := by
  have hfield : (Field.of name codec part).ofDoc d = (Field.of name codec part).ofDoc d' := by
    funext s
    show (codec.ofDoc d).map _ = (codec.ofDoc d').map _
    rw [h]
  cases hw with
  | member before behind e =>
    have hmembers : r.ofMembers [] r.default (before ++ (.text (.ok name), d) :: behind) =
        r.ofMembers [] r.default (before ++ (.text (.ok name), d') :: behind) := by
      rw [ofMembers_append, ofMembers_append]
      refine bind_congr fun p => ?_
      rw [ho.ofMembers_cons, ho.ofMembers_cons, hfield]
    rw [ofDoc, ofDoc, hmembers]
  | item hlength behind e =>
    obtain ⟨fs, fs', hfields, hindex, -⟩ := ho.exists_fields
    have hlength := hlength.trans hindex.symm
    rw [ofDoc, ofDoc, hfields, ofItems_append hlength, ofItems_append hlength]
    refine bind_congr fun s => ?_
    rw [ofItems, ofItems, hfield]

/-- **What a field reads stays**, whatever is read behind it. -/
theorem get_ofDoc (h : r.ofDoc w = .ok s) (hw : Gives r name d w) :
    ∃ a, codec.ofDoc d = .ok a ∧ part.get s = a := by
  cases hw with
  | member hmem e =>
    obtain ⟨before, behind, rfl⟩ := List.append_of_mem hmem
    obtain ⟨seen, h⟩ := ofDoc_object_eq_ok h
    rw [ofMembers_append] at h
    obtain ⟨⟨s₁, seen₁⟩, -, h⟩ := Except.bind_eq_ok_iff.mp h
    rw [ho.ofMembers_cons] at h
    split at h
    · cases h
    · obtain ⟨s₂, hread, h⟩ := Except.bind_eq_ok_iff.mp h
      obtain ⟨a, ha, hget⟩ := ho.ofDoc_eq_ok hread
      refine ⟨a, ha, ?_⟩
      rw [get_ofMembers ho.others (.inl (List.mem_cons_self ..)) h, hget]
  | @item items hitem e =>
    obtain ⟨fs, fs', hfields, hindex, hkeeps⟩ := ho.exists_fields
    rw [← hindex, List.getElem?_eq_some_iff] at hitem
    obtain ⟨hlt, hitem⟩ := hitem
    have hsplit : items = items.take fs.length ++ d :: items.drop (fs.length + 1) := by
      rw [← hitem, ← List.drop_eq_getElem_cons hlt, List.take_append_drop]
    have hlength : (items.take fs.length).length = fs.length :=
      List.length_take_of_le (Nat.le_of_lt hlt)
    rw [ofDoc, hfields, hsplit, ofItems_append hlength] at h
    obtain ⟨s₁, -, h⟩ := Except.bind_eq_ok_iff.mp h
    obtain ⟨s₂, hread, h⟩ := Except.bind_eq_ok_iff.mp h
    obtain ⟨a, ha, hget⟩ := ho.ofDoc_eq_ok hread
    refine ⟨a, ha, ?_⟩
    rw [get_ofItems (fun f hf => hkeeps f
      (List.mem_append_right _ (List.mem_of_mem_take hf))) h, hget]

/-- **A field that is not given has its default.** -/
theorem get_ofDoc_of_not_gives (h : r.ofDoc w = .ok s) (hw : ∀ d, ¬ Gives r name d w) :
    part.get s = part.get r.default := by
  cases w with
  | object members e =>
    obtain ⟨seen, h⟩ := ofDoc_object_eq_ok h
    exact get_ofMembers ho.others (.inr fun d hd => hw d (.member hd e)) h
  | array items e =>
    obtain ⟨fs, fs', hfields, hindex, hkeeps⟩ := ho.exists_fields
    have hlength : items.length ≤ fs.length := by
      rw [← List.getElem?_eq_none_iff]
      refine Option.eq_none_iff_forall_ne_some.mpr fun d hd => hw d (.item ?_ e)
      rwa [← hindex]
    rw [ofDoc, hfields] at h
    refine get_ofItems (fun f hf => hkeeps f (List.mem_append_left _ ?_)) h
    rw [List.take_append_of_le_length hlength] at hf
    exact List.mem_of_mem_take hf
  | null | bool | number | string | broken =>
    simp only [ofDoc] at h
    exact absurd h Decoded.mismatch_ne_ok

end Owns

/-! ### YAML -/

/-- A document gives a field: under its name in the mapping that it is. -/
def GivesNode (name : String) (y : Yaml.Document) (n : Yaml.Node Nat) : Prop :=
  ∃ root p entries key, y.root = some root ∧ y.deref root = some (.mapping p entries) ∧
    (key, n) ∈ entries ∧ y.text? key = some name

/-- Two entries, each in its own document, give the same: what can be read of the one can be read of
the other. -/
def ReadAlike (r : Record σ) (y y' : Yaml.Document) (e e' : Yaml.Node Nat × Yaml.Node Nat) :
    Prop :=
  y.text? e.1 = y'.text? e'.1 ∧
    ∀ k f, y.text? e.1 = some k → r.field? k = some f → f.ofNode? y e.2 = f.ofNode? y' e'.2

/-- Two documents give the same, but that the one gives a field as `n` and the other as `n'`. -/
def SwapsNodes (r : Record σ) (name : String) (n n' : Yaml.Node Nat) (y y' : Yaml.Document) :
    Prop :=
  ∃ root root' p p' before before' behind behind' key key',
    y.root = some root ∧ y.deref root = some (.mapping p (before ++ (key, n) :: behind)) ∧
    y'.root = some root' ∧ y'.deref root' = some (.mapping p' (before' ++ (key', n') :: behind')) ∧
    y.text? key = some name ∧ y'.text? key' = some name ∧
    List.Forall₂ (r.ReadAlike y y') before before' ∧ List.Forall₂ (r.ReadAlike y y') behind behind'

variable {y y' : Yaml.Document}

/-- Entries of which the same can be read are read alike, and so is what stands behind them. -/
theorem ofEntries?_congr {es es' rest rest' : List (Yaml.Node Nat × Yaml.Node Nat)}
    (h : List.Forall₂ (r.ReadAlike y y') es es')
    (hrest : ∀ seen s, r.ofEntries? y seen s rest = r.ofEntries? y' seen s rest')
    (seen : List String) (s : σ) :
    r.ofEntries? y seen s (es ++ rest) = r.ofEntries? y' seen s (es' ++ rest') := by
  induction h generalizing seen s with
  | nil => exact hrest seen s
  | @cons e e' es es' he _ ih =>
    obtain ⟨key, n⟩ := e
    obtain ⟨key', n'⟩ := e'
    obtain ⟨hkey, hfield⟩ := he
    rw [List.cons_append, List.cons_append, ofEntries?, ofEntries?]
    dsimp only at hkey hfield
    rw [← hkey]
    cases hk : y.text? key with
    | none => rfl
    | some k =>
      simp only [Option.bind_eq_bind, Option.bind_some]
      cases hf : r.field? k with
      | none => exact ih seen s
      | some f =>
        dsimp only
        split
        · rfl
        · rw [hfield k f hk hf]
          exact bind_congr fun s => ih (k :: seen) s

/-- Entries are read one behind the other. -/
theorem ofEntries?_append (seen : List String) (s : σ)
    (es es' : List (Yaml.Node Nat × Yaml.Node Nat)) {s' : σ}
    (h : r.ofEntries? y seen s (es ++ es') = some s') :
    ∃ seen₁ s₁, r.ofEntries? y seen₁ s₁ es' = some s' := by
  induction es generalizing seen s with
  | nil => exact ⟨seen, s, h⟩
  | cons e es ih =>
    obtain ⟨key, n⟩ := e
    rw [List.cons_append, ofEntries?] at h
    obtain ⟨k, -, h⟩ := Option.bind_eq_some_iff.mp h
    split at h
    · exact ih _ _ h
    · split at h
      · cases h
      · obtain ⟨s₁, -, h⟩ := Option.bind_eq_some_iff.mp h
        exact ih _ _ h

/-- Reading entries leaves a part alone that no field of theirs owns. -/
theorem get_ofEntries? (hothers : ∀ f ∈ r.fields, f.name ≠ name → f.Keeps part)
    {seen : List String} {s s' : σ} {es : List (Yaml.Node Nat × Yaml.Node Nat)}
    (hname : name ∈ seen ∨ ∀ e ∈ es, y.text? e.1 ≠ some name)
    (h : r.ofEntries? y seen s es = some s') : part.get s' = part.get s := by
  induction es generalizing seen s with
  | nil =>
    cases h
    rfl
  | cons e es ih =>
    obtain ⟨key, n⟩ := e
    have hrest : ∀ seen₁, seen ⊆ seen₁ → name ∈ seen₁ ∨ ∀ e ∈ es, y.text? e.1 ≠ some name :=
      fun seen₁ hseen => hname.imp (fun hn => hseen hn) fun hn e he =>
        hn e (List.mem_cons_of_mem _ he)
    rw [ofEntries?] at h
    obtain ⟨k, hk, h⟩ := Option.bind_eq_some_iff.mp h
    cases hf : r.field? k with
    | none =>
      rw [hf] at h
      exact ih (hrest seen (List.Subset.refl _)) h
    | some f =>
      rw [hf] at h
      dsimp only at h
      split at h
      · cases h
      · rename_i hseen
        obtain ⟨hmem, rfl⟩ := field?_eq_some hf
        obtain ⟨s₁, hread, h⟩ := Option.bind_eq_some_iff.mp h
        have hne : f.name ≠ name := by
          rintro rfl
          rcases hname with hn | hn
          · exact hseen hn
          · exact hn _ (List.mem_cons_self ..) hk
        rw [ih (hrest _ (List.subset_cons_self ..)) h, (hothers f hmem hne).ofNode? hread]

theorem ofYaml?_of_root {text : List Char} {root : Yaml.Node Nat}
    (hy : Yaml.Document.ofText? text = some y) (hroot : y.root = some root) :
    r.ofYaml? text = r.ofNode? y root := by
  rw [ofYaml?, hy, Option.bind_eq_bind, Option.bind_some, hroot]

/-- What is read of a mapping is what is read of its entries. -/
theorem ofNode?_mapping {root : Yaml.Node Nat} {p : Yaml.Properties}
    {entries : List (Yaml.Node Nat × Yaml.Node Nat)}
    (h : y.deref root = some (.mapping p entries)) :
    r.ofNode? y root = r.ofEntries? y [] r.default entries := by
  rw [ofNode?, h]
  rfl

namespace Owns

variable (ho : r.Owns name codec part) {text text' : List Char} {n n' : Yaml.Node Nat} {s : σ}
include ho

theorem ofEntries?_cons {key : Yaml.Node Nat} (hkey : y.text? key = some name)
    (seen : List String) (s : σ) (n : Yaml.Node Nat)
    (es : List (Yaml.Node Nat × Yaml.Node Nat)) :
    r.ofEntries? y seen s ((key, n) :: es) =
      if name ∈ seen then none
      else ((Field.of name codec part).ofNode? y n s).bind fun s =>
        r.ofEntries? y (name :: seen) s es := by
  simp only [ofEntries?, hkey, Option.bind_eq_bind, Option.bind_some, ho.field?_eq]

/-- **Nothing but what a field reads matters.** -/
theorem ofYaml?_of_swapsNodes (hy : Yaml.Document.ofText? text = some y)
    (hy' : Yaml.Document.ofText? text' = some y')
    (h : codec.ofNode? y n = codec.ofNode? y' n') (hswaps : r.SwapsNodes name n n' y y') :
    r.ofYaml? text = r.ofYaml? text' := by
  obtain ⟨root, root', p, p', before, before', behind, behind', key, key', hroot, hderef, hroot',
    hderef', hkey, hkey', hbefore, hbehind⟩ := hswaps
  have hfield : (Field.of name codec part).ofNode? y n =
      (Field.of name codec part).ofNode? y' n' := by
    funext s
    show (codec.ofNode? y n).map _ = (codec.ofNode? y' n').map _
    rw [h]
  have hnil : ∀ seen s, r.ofEntries? y seen s [] = r.ofEntries? y' seen s [] := fun _ _ => rfl
  have hrest : ∀ seen s, r.ofEntries? y seen s behind = r.ofEntries? y' seen s behind' := by
    intro seen s
    have := ofEntries?_congr hbehind hnil seen s
    rwa [List.append_nil, List.append_nil] at this
  rw [ofYaml?_of_root hy hroot, ofYaml?_of_root hy' hroot', ofNode?_mapping hderef,
    ofNode?_mapping hderef']
  refine ofEntries?_congr hbefore (fun seen s => ?_) [] r.default
  rw [ho.ofEntries?_cons hkey, ho.ofEntries?_cons hkey', hfield]
  split
  · rfl
  · exact bind_congr fun s => hrest _ s

/-- **What a field reads stays**, whatever is read behind it. -/
theorem get_ofYaml? (hy : Yaml.Document.ofText? text = some y) (h : r.ofYaml? text = some s)
    (hgives : GivesNode name y n) : ∃ a, codec.ofNode? y n = some a ∧ part.get s = a := by
  obtain ⟨root, p, entries, key, hroot, hderef, hmem, hkey⟩ := hgives
  rw [ofYaml?_of_root hy hroot, ofNode?_mapping hderef] at h
  obtain ⟨before, behind, rfl⟩ := List.append_of_mem hmem
  obtain ⟨seen, s₁, h⟩ := ofEntries?_append _ _ _ _ h
  rw [ho.ofEntries?_cons hkey] at h
  split at h
  · cases h
  · obtain ⟨s₂, hread, h⟩ := Option.bind_eq_some_iff.mp h
    obtain ⟨a, ha, hget⟩ := ho.ofNode?_eq_some hread
    refine ⟨a, ha, ?_⟩
    rw [get_ofEntries? ho.others (.inl (List.mem_cons_self ..)) h, hget]

/-- **A field that is not given has its default.** -/
theorem get_ofYaml?_of_not_gives (hy : Yaml.Document.ofText? text = some y)
    (h : r.ofYaml? text = some s) (hgives : ∀ n, ¬ GivesNode name y n) :
    part.get s = part.get r.default := by
  cases hroot : y.root with
  | none =>
    rw [ofYaml?, hy, Option.bind_eq_bind, Option.bind_some, hroot] at h
    cases h
    rfl
  | some root =>
    rw [ofYaml?_of_root hy hroot] at h
    obtain ⟨node, hderef, hread⟩ := Option.bind_eq_some_iff.mp h
    split at hread
    · rename_i p entries
      exact get_ofEntries? ho.others (.inr fun e he hkey =>
        hgives e.2 ⟨root, p, entries, e.1, hroot, hderef, he, hkey⟩) hread
    · split at hread
      · cases hread
        rfl
      · cases hread

end Owns

end Record

end Capsule
