import Capsule.Config.Load
import Capsule.Proofs.Config.RoundTrip
import Capsule.Proofs.Utf8
import Capsule.Proofs.Yaml.Documents
import Mathlib

/-!
# Both formats agree

The compact JSON text of a configuration is YAML text as well. This file proves that it is read as
the same configuration in either format, so that it does not matter what the file is called:
`Config.formats_agree`.

## Why quotation marks decide

The two formats have different rules for scalars. YAML gives a type to a plain scalar if it looks
like one of that type, takes any scalar for a text, but in a map of texts only those that mean one.
None of this matters for the texts of a configuration: they are written between quotation marks,
and then YAML looks at nothing else.

## One table

A record is written, and read in both formats, by the one table of its fields. So all that is asked
of a codec is `Codec.RestoresBoth`, the contract of the round trip with a half for YAML, and the
record is followed along `Field.Carries` a second time: where the reader of JSON ends is known from
the round trip, and the reader of YAML ends there too.

## Main definitions

* `Codec.RestoresBoth`: what is written is read back in both formats
* `Codec.WritesFlow`: what is written of a value is YAML text
* `Config.texts`, `Config.keys`: the texts of a configuration, and those of them that are keys

## Main results

* `Record.Restores.ofYaml?_compactChars`: the compact text of a record is read back as YAML
* `Config.formats_agree`: a configuration is read from its compact text, in any file
-/

namespace Capsule

open Yaml (IsPrintable IsKey IsFlow IsFlowItems IsFlowMembers)

variable {σ α : Type}

/-! ### Fields -/

/-- What is written is read back from its node as well. -/
structure Codec.RestoresBoth (codec : Codec α) : Prop extends codec.Restores where
  ofNode?_ofJson (y : Yaml.Document) {a : α} {v : Json} (written : codec.toJson? a = some v) :
    codec.ofNode? y (.ofJson v) = some a

/-- What is written of a field is read alike from the document and from the node. -/
def Field.ReadsAlike (f : Field σ) : Prop :=
  ∀ (y : Yaml.Document) {c : σ} {v : Json} (s : σ), f.toJson? c = some v →
    f.ofNode? y (.ofJson v) s = (f.ofDoc (.ofJson v) s).toOption

theorem Field.ReadsAlike.of {name : String} {codec : Codec α} {part : Part σ α}
    (hcodec : codec.RestoresBoth) : (Field.of name codec part).ReadsAlike := by
  intro y c v s written
  show (codec.ofNode? y (.ofJson v)).map _ = ((codec.ofDoc (.ofJson v)).map _).toOption
  rw [hcodec.ofDoc_ofJson written, hcodec.ofNode?_ofJson y written]
  rfl

namespace Record

variable {r : Record σ} {view : σ → σ} {c s t : σ} {fs : List (Field σ)} {y : Yaml.Document}

/-- The entries that are written are read in turn, and lead where the members lead. -/
theorem ofEntries?_of_carries (hnames : (r.fields.map (·.name)).Nodup)
    (halike : ∀ f ∈ r.fields, f.ReadsAlike) (h : Field.Carries c fs s t)
    (hfs : fs.Sublist r.fields) {seen : List String} (hseen : ∀ f ∈ fs, f.name ∉ seen) :
    r.ofEntries? y seen s (Yaml.Node.ofMembers (members fs c)) = some t := by
  induction h generalizing seen with
  | nil s => rfl
  | leftOut hwritten _ ih =>
    rw [members, List.filterMap_cons, hwritten]
    exact ih ((List.sublist_cons_self ..).trans hfs) fun g hg =>
      hseen g (List.mem_cons_of_mem _ hg)
  | @written f fs s s' t v hwritten _ hread _ ih =>
    have hf := hfs.subset (List.mem_cons_self ..)
    have hnode : f.ofNode? y (.ofJson v) s = some s' := by
      rw [halike f hf y s hwritten, hread]
      rfl
    have hkey : y.text? (.scalar {} .doubleQuoted f.name.toList) = some f.name := by
      simp [Yaml.Document.text?, Yaml.Document.deref]
    rw [members, List.filterMap_cons, hwritten]
    show r.ofEntries? y seen s ((.scalar {} .doubleQuoted f.name.toList, .ofJson v) ::
      Yaml.Node.ofMembers (members fs c)) = _
    simp only [ofEntries?, hkey, field?_of_mem hnames hf, hseen f (List.mem_cons_self ..),
      hnode, Option.bind_eq_bind, Option.bind_some, if_false]
    exact ih ((List.sublist_cons_self ..).trans hfs) (name_not_mem_cons hnames hfs hseen)

theorem Restores.ofNode?_toJson (h : r.Restores view) (halike : ∀ f ∈ r.fields, f.ReadsAlike)
    (y : Yaml.Document) (c : σ) : r.ofNode? y (.ofJson (r.toJson c)) = some (view c) := by
  show r.ofNode? y (.mapping {} (Yaml.Node.ofMembers (members r.fields c))) = _
  rw [ofNode?]
  exact ofEntries?_of_carries h.names halike (h.carries c) (.refl _) fun _ _ => List.not_mem_nil

/-- **The compact text of a record is read back as YAML.** -/
theorem Restores.ofYaml?_compactChars (h : r.Restores view)
    (halike : ∀ f ∈ r.fields, f.ReadsAlike) {c : σ} (hflow : IsFlow (r.toJson c)) :
    r.ofYaml? (r.toJson c).compactChars = some (view c) := by
  have hdoc : Yaml.Document.ofText? (r.toJson c).compactChars = _ :=
    Yaml.Document.ofText?_compactChars hflow
  rw [ofYaml?, hdoc]
  exact h.ofNode?_toJson halike _ c

end Record

/-- Where a text is read alike in both formats it does not matter which of them it is in. -/
theorem Record.ofText_eq_ok (r : Record σ) {text : List Char} {s : σ} (format : Format)
    (hjson : r.ofJson text = .ok s) (hyaml : r.ofYaml? text = some s) :
    r.ofText format text = .ok s := by
  cases format with
  | json =>
    rw [ofText, hjson]
    rfl
  | yaml => simp only [ofText, hyaml]

/-! ### Codecs -/

namespace Codec

open Yaml (Node)

theorem restoresBoth_bool : bool.RestoresBoth where
  toRestores := restores_bool
  ofNode?_ofJson y b v h := by
    cases h
    cases b <;> rfl

theorem restoresBoth_text : text.RestoresBoth where
  toRestores := restores_text
  ofNode?_ofJson y s v h := by
    cases h
    show some (String.ofList s.toList) = some s
    rw [String.ofList_toList]

theorem ofItems_strings {ρ : Type} (ws : List String) :
    (Node.ofItems (ws.map .string) : List (Node ρ)) =
      ws.map fun w => .scalar {} .doubleQuoted w.toList := by
  induction ws with
  | nil => rfl
  | cons w ws ih => exact congrArg _ ih

theorem ofMembers_entryMembers {ρ : Type} (es : List (String × String)) :
    (Node.ofMembers (entryMembers es) : List (Node ρ × Node ρ)) = es.map fun e =>
      (.scalar {} .doubleQuoted e.1.toList, .scalar {} .doubleQuoted e.2.toList) := by
  induction es with
  | nil => rfl
  | cons e es ih => exact congrArg _ ih

theorem restoresBoth_texts : texts.RestoresBoth where
  toRestores := restores_texts
  ofNode?_ofJson y ws v h := by
    cases h
    show (Node.ofItems (ws.map .string)).mapM y.text? = some ws
    have htext : ∀ w ∈ ws, (y.text? ∘ fun w => .scalar {} .doubleQuoted w.toList) w = some w := by
      intro w _
      exact restoresBoth_text.ofNode?_ofJson y rfl
    rw [ofItems_strings, List.mapM_map, List.mapM_eq_some_map htext, List.map_id']

/-- A quoted scalar is a text, whatever it could mean without its quotation marks. -/
theorem typedText?_doubleQuoted (y : Yaml.Document) (s : String) :
    y.typedText? (.scalar {} .doubleQuoted s.toList) = some s := by
  show some (String.ofList s.toList) = some s
  rw [String.ofList_toList]

theorem stringMap?_entryMembers (y : Yaml.Document) (es : List (String × String)) :
    y.stringMap? (.ofJson (.object (entryMembers es))) = some (TextMap.ofList es) := by
  show ((Node.ofMembers (entryMembers es)).mapM y.typedPair?).map TextMap.ofList = _
  have hentry : ∀ e ∈ es, (y.typedPair? ∘ fun e =>
      (.scalar {} .doubleQuoted e.1.toList, .scalar {} .doubleQuoted e.2.toList)) e = some e := by
    intro e _
    simp [Yaml.Document.typedPair?, typedText?_doubleQuoted]
  rw [ofMembers_entryMembers, List.mapM_map, List.mapM_eq_some_map hentry, List.map_id']
  rfl

theorem restoresBoth_stringMap : stringMap.RestoresBoth where
  toRestores := restores_stringMap
  ofNode?_ofJson y m v h := by
    cases h
    show ((y.stringMap? (.ofJson (.object (entryMembers m.toList)))).map some).map _ = some m
    rw [stringMap?_entryMembers, TextMap.ofList_toList]
    rfl

theorem restoresBoth_block {τ : Type} {r : Record τ} (h : r.Restores id)
    (halike : ∀ f ∈ r.fields, f.ReadsAlike) : (block r).RestoresBoth where
  toRestores := restores_block h
  ofNode?_ofJson y t v hv := by
    obtain ⟨t, rfl, rfl⟩ := Option.map_eq_some_iff.mp hv
    show (r.ofNode? y (.ofJson (r.toJson t))).map some = _
    rw [h.ofNode?_toJson halike]
    rfl

/-! ### What is written is YAML text -/

/-- What is written of a value is YAML text. -/
def WritesFlow (codec : Codec α) (a : α) : Prop := ∀ v, codec.toJson? a = some v → IsFlow v

theorem writesFlow_bool (b : Bool) : bool.WritesFlow b := by
  rintro _ ⟨⟩
  trivial

theorem writesFlow_text {s : String} (h : ∀ ch ∈ s.toList, IsPrintable ch) : text.WritesFlow s := by
  rintro _ ⟨⟩
  exact h

theorem isFlowItems_strings {ws : List String} (h : ∀ w ∈ ws, ∀ ch ∈ w.toList, IsPrintable ch) :
    IsFlowItems (ws.map .string) := by
  induction ws with
  | nil => trivial
  | cons w ws ih =>
    rw [List.forall_mem_cons] at h
    exact ⟨h.1, ih h.2⟩

theorem writesFlow_texts {ws : List String} (h : ∀ w ∈ ws, ∀ ch ∈ w.toList, IsPrintable ch) :
    texts.WritesFlow ws := by
  rintro _ ⟨⟩
  exact isFlowItems_strings h

theorem isFlowMembers_entryMembers {es : List (String × String)}
    (h : ∀ e ∈ es, IsKey e.1 ∧ ∀ ch ∈ e.2.toList, IsPrintable ch) :
    IsFlowMembers (entryMembers es) := by
  induction es with
  | nil => trivial
  | cons e es ih =>
    rw [List.forall_mem_cons] at h
    exact ⟨h.1.1, h.1.2, ih h.2⟩

theorem writesFlow_stringMap {m : StringMap}
    (h : ∀ e ∈ m.toList, IsKey e.1 ∧ ∀ ch ∈ e.2.toList, IsPrintable ch) :
    stringMap.WritesFlow m := by
  rintro _ ⟨⟩
  exact isFlowMembers_entryMembers h

theorem writesFlow_block {τ : Type} {r : Record τ} {t : Option τ}
    (h : ∀ b, t = some b → IsFlow (r.toJson b)) : (block r).WritesFlow t := by
  intro v hv
  obtain ⟨b, hb, rfl⟩ := Option.map_eq_some_iff.mp hv
  exact h b hb

end Codec

/-- A record is YAML text if each of its fields is. -/
theorem Record.isFlow_toJson {r : Record σ} {c : σ} (hnames : ∀ f ∈ r.fields, IsKey f.name)
    (h : ∀ f ∈ r.fields, ∀ v, f.toJson? c = some v → IsFlow v) : IsFlow (r.toJson c) := by
  show IsFlowMembers (members r.fields c)
  generalize r.fields = fs at hnames h
  induction fs with
  | nil => trivial
  | cons f fs ih =>
    rw [List.forall_mem_cons] at hnames h
    have hfs := ih hnames.2 h.2
    cases hwritten : f.toJson? c with
    | none => rwa [members, List.filterMap_cons, hwritten]
    | some v =>
      rw [members, List.filterMap_cons, hwritten]
      exact ⟨hnames.1, h.1 v hwritten, hfs⟩

/-! ### Configurations -/

open Codec

namespace Download

/-- The texts of a download. -/
def texts (d : Download) : List String := [d.url, d.kind, d.verify]

theorem readsAlike_record : ∀ f ∈ record.fields, f.ReadsAlike := by
  simp only [record, List.forall_mem_cons]
  exact ⟨.of restoresBoth_text, .of restoresBoth_text, .of restoresBoth_bool,
    .of restoresBoth_text, List.forall_mem_nil _⟩

theorem isFlow_toJson {d : Download} (h : ∀ s ∈ d.texts, ∀ ch ∈ s.toList, IsPrintable ch) :
    IsFlow (record.toJson d) := by
  refine Record.isFlow_toJson (by decide) ?_
  simp only [record, List.forall_mem_cons]
  exact ⟨writesFlow_text (h _ (by simp [texts])), writesFlow_text (h _ (by simp [texts])),
    writesFlow_bool _, writesFlow_text (h _ (by simp [texts])), List.forall_mem_nil _⟩

end Download

namespace Config

/-- The maps of a configuration. -/
def maps (c : Config) : List StringMap := [c.bind, c.bindReadOnly, c.environment, c.properties]

/-- The keys of the maps of a configuration. -/
def keys (c : Config) : List String := c.maps.flatMap fun m => m.toList.map (·.1)

/-- The texts of a configuration that are written: all but the path of its image. -/
def texts (c : Config) : List String :=
  c.command ++ [c.console, c.image, c.machine, c.pivotRoot, c.resolvConf, c.user, c.volatile,
    c.workingDirectory, c.networkNamespace] ++ (c.download.map (·.texts)).getD [] ++
    c.maps.flatMap fun m => m.toList.flatMap fun e => [e.1, e.2]

theorem readsAlike_record : ∀ f ∈ record.fields, f.ReadsAlike := by
  have hdownload := restoresBoth_block Download.restores_record Download.readsAlike_record
  simp only [record, List.forall_mem_cons]
  exact ⟨.of restoresBoth_bool, .of restoresBoth_bool, .of restoresBoth_bool,
    .of restoresBoth_bool, .of restoresBoth_bool, .of restoresBoth_texts, .of restoresBoth_text,
    .of restoresBoth_text, .of hdownload, .of restoresBoth_text, .of restoresBoth_text,
    .of restoresBoth_text, .of restoresBoth_text, .of restoresBoth_text, .of restoresBoth_text,
    .of restoresBoth_text, .of restoresBoth_stringMap, .of restoresBoth_stringMap,
    .of restoresBoth_stringMap, .of restoresBoth_stringMap, List.forall_mem_nil _⟩

section

variable {c : Config} (htexts : ∀ s ∈ c.texts, ∀ ch ∈ s.toList, IsPrintable ch)
  (hkeys : ∀ k ∈ c.keys, k.length ≤ 500)
include htexts hkeys

theorem isFlow_toJson : IsFlow c.toJson := by
  refine Record.isFlow_toJson (by decide) ?_
  have htext : ∀ s ∈ c.texts, Codec.text.WritesFlow s := fun s hs => writesFlow_text (htexts s hs)
  have hcommand : Codec.texts.WritesFlow c.command :=
    writesFlow_texts fun w hw => htexts w (by simp [texts, hw])
  have hdownload : (block Download.record).WritesFlow c.download := by
    refine writesFlow_block fun d hd => Download.isFlow_toJson fun s hs => htexts s ?_
    simp [texts, hd, hs]
  have hmap : ∀ m ∈ c.maps, stringMap.WritesFlow m := by
    intro m hm
    have hmaps : ∀ e ∈ m.toList, ∀ s ∈ [e.1, e.2], s ∈ c.texts := fun e he s hs =>
      List.mem_append_right _ (List.mem_flatMap.mpr ⟨m, hm, List.mem_flatMap.mpr ⟨e, he, hs⟩⟩)
    refine writesFlow_stringMap fun e he => ⟨Yaml.isKey_of_length_le ?_ (hkeys _ ?_), ?_⟩
    · exact htexts _ (hmaps e he _ (by simp))
    · exact List.mem_flatMap.mpr ⟨m, hm, List.mem_map_of_mem he⟩
    · exact htexts _ (hmaps e he _ (by simp))
  simp only [record, List.forall_mem_cons]
  exact ⟨writesFlow_bool _, writesFlow_bool _, writesFlow_bool _, writesFlow_bool _,
    writesFlow_bool _, hcommand, htext _ (by simp [texts]), htext _ (by simp [texts]), hdownload,
    htext _ (by simp [texts]), htext _ (by simp [texts]), htext _ (by simp [texts]),
    htext _ (by simp [texts]), htext _ (by simp [texts]), htext _ (by simp [texts]),
    htext _ (by simp [texts]), hmap _ (by simp [maps]), hmap _ (by simp [maps]),
    hmap _ (by simp [maps]), hmap _ (by simp [maps]), List.forall_mem_nil _⟩

end

/-- **Both formats agree on configurations** whose texts are printable and whose keys are short. What
is written of one is read back as JSON and as YAML, and from a file of any name. -/
theorem formats_agree (c : Config)
    (htexts : ∀ s ∈ c.texts, ∀ ch ∈ s.toList, ' ' ≤ ch ∧ ch ≤ '~')
    (hkeys : ∀ k ∈ c.keys, k.length ≤ 500) :
    ofJson c.toJson.compact.toList = .ok { c with imagePath := none } ∧
      ofYaml? c.toJson.compact.toList = some { c with imagePath := none } ∧
      ∀ host path, host.files.read host.directory path = .ok c.toJson.compact.toList →
        load host path = .ok { c with imagePath := none } := by
  have hjson : ofJson c.toJson.compact.toList = .ok { c with imagePath := none } := by
    rw [Json.compact, String.toList_ofList]
    exact restores_record.ofJson_of_spells
      (Json.spells_compactChars _ (restores_record.numberFree c))
  have hyaml : ofYaml? c.toJson.compact.toList = some { c with imagePath := none } := by
    rw [Json.compact, String.toList_ofList]
    exact restores_record.ofYaml?_compactChars readsAlike_record (isFlow_toJson htexts hkeys)
  refine ⟨hjson, hyaml, fun host path hread => ?_⟩
  rw [load, Record.load, hread]
  exact record.ofText_eq_ok (formatOf path) hjson hyaml

/-- Texts that YAML would take for something else if they were not between quotation marks. -/
theorem formats_agree_on_words :
    let c : Config := {
      command := ["null", "- a: b", "\"\\ #", "[\x7b,\x7d]"],
      download := some { url := "~", kind := "0x1F", force := true, verify := " " },
      environment := TextMap.ofList [("null: ", "true"), ("\"", "1e3")] }
    let file : Entry := .file (Utf8.encode c.toJson.compact) false
    let host (name : String) : Host := ⟨.insert .empty [name] file, [], .ok "/"⟩
    (∀ s ∈ c.texts, ∀ ch ∈ s.toList, ' ' ≤ ch ∧ ch ≤ '~') ∧ (∀ k ∈ c.keys, k.length ≤ 500) ∧
      ofJson c.toJson.compact.toList = .ok c ∧ ofYaml? c.toJson.compact.toList = some c ∧
      load (host "c.json") "c.json" = .ok c ∧ load (host "c.yaml") "c.yaml" = .ok c := by
  intro c file host
  have htexts : ∀ s ∈ c.texts, ∀ ch ∈ s.toList, ' ' ≤ ch ∧ ch ≤ '~' := by
    have hall : c.texts.all fun s => s.toList.all fun ch => ' ' ≤ ch ∧ ch ≤ '~' := by
      decide +kernel
    simpa only [List.all_eq_true, decide_eq_true_eq] using hall
  have hkeys : ∀ k ∈ c.keys, k.length ≤ 500 := by decide +kernel
  have hentry (content : List UInt8) :
      let file : Entry := .file content false
      (Files.empty.insert ["c.json"] file).entry [] "c.json" = .ok file ∧
        (Files.empty.insert ["c.yaml"] file).entry [] "c.yaml" = .ok file := by
    constructor <;> cbv
  obtain ⟨hjson, hyaml, hload⟩ := formats_agree c htexts hkeys
  obtain ⟨hfirst, hsecond⟩ := hentry (Utf8.encode c.toJson.compact)
  exact ⟨htexts, hkeys, hjson, hyaml, hload (host "c.json") _ (Files.read_of_entry hfirst),
    hload (host "c.yaml") _ (Files.read_of_entry hsecond)⟩

end Config

end Capsule
