import EspressoLogs.Importer.Schema
import EspressoLogs.Lib.Fallible

/-!
The replies of the language model about columns.

`parse_mapping_response` and `parse_batch_mapping_response` read a reply that can
be anything. What they miss are replies that are JSON, but not of the shape that
they ask for: calling `.get` or `.items` on something else than an object raises
an error that they do not catch, and so does a reply that `json.loads` gives up on.
-/

namespace EspressoLogs.Importer

open Lib Py

/-! ### JSON -/

/-- What `json.loads` makes of a text. -/
inductive Json where
  | null
  | bool (b : Bool)
  | int (i : Int)
  | float (x : PyFloat)
  | str (s : String)
  | arr (items : List Json)
  | obj (fields : List (String × Json))

/-- How `json.loads` fails. -/
inductive LoadError where
  /-- The text is not JSON. -/
  | decode
  /-- It has an integer of more digits than `int` converts. -/
  | digits
  /-- It is nested too deeply. -/
  | recursion
  deriving DecidableEq, Repr

abbrev Loads := String → Except LoadError Json

def LoadError.raised : LoadError → Exc
  | decode => .jsonDecodeError
  | digits => .valueError
  | recursion => .recursionError

def load (loads : Loads) (reply : String) : Except Exc Json := (loads reply).mapError LoadError.raised

namespace Json

/-- `bool(v)`. -/
def truthy : Json → Bool
  | null => false
  | bool b => b
  | int i => i ≠ 0
  | float x => x ≠ .fin 0
  | str s => s ≠ ""
  | arr items => !items.isEmpty
  | obj fields => !fields.isEmpty

def IsObject : Json → Prop
  | obj _ => True
  | _ => False

/-- `data[key]`. -/
def item (key : String) : Json → Except Exc Json
  | obj fields =>
      match fields.lookup key with
      | some v => .ok v
      | none => .error (.keyError)
  | _ => .error (.typeError)

/-- `data.get(key, {})`. -/
def get (key : String) : Json → Except Exc Json
  | obj fields => .ok ((fields.lookup key).getD (.obj []))
  | _ => .error (.attributeError)

/-- `data.items()`. -/
def items : Json → Except Exc (List (String × Json))
  | obj fields => .ok fields
  | _ => .error (.attributeError)

end Json

/-! ### One section -/

def parseMappingResponse (loads : Loads) (llmResponse : String) :
    Except Exc (List (String × Json)) :=
  tryCatch (do
    let data ← load loads llmResponse
    (← data.item "mapping").items) fun e =>
      if e = .jsonDecodeError ∨ e = .keyError ∨ e = .typeError then pure []
      else throw e

/-! ### All sections -/

/-- What the reply says about the columns of a section. -/
abbrev Mapping := List (Option String × Json)

/-- The sections that the model is asked about. -/
def askedSections (sections : Sections) : List (String × List Row) :=
  sections.entries.filter fun x => x.1 ≠ "Grinder_Calibration" && !x.2.isEmpty

/-- Every column under its own name. -/
def identityMapping (rows : List Row) : Mapping :=
  (rows.head?.map Ordered.keys).getD [] |>.map fun col => (col, (col.map Json.str).getD .null)

/-- The columns under the given names, or under their own where none are given. -/
def useMapping (rows : List Row) (mapping : Json) : Except Exc Mapping := do
  if !mapping.truthy then return identityMapping rows
  return (← mapping.items).map fun x => (some x.1, x.2)

def sectionMapping (sectionData : Json) (name : String) (rows : List Row) : Except Exc Mapping := do
  let raw ← sectionData.get name
  let mapping ← match raw with
    | .obj _ => raw.get "mapping"
    | _ => pure (.obj [])
  useMapping rows mapping

def parseBatchMappingResponse (loads : Loads) (llmResponse : String) (sections : Sections) :
    Except Exc (List (String × Mapping)) := do
  let sectionData ← tryCatch (do
      let data ← load loads llmResponse
      data.get "sections") fun e =>
    if e = .jsonDecodeError ∨ e = .typeError then pure (.obj []) else throw e
  (askedSections sections).mapM fun x => do return (x.1, ← sectionMapping sectionData x.1 x.2)

/-! ### What is expected of them -/

namespace Json

/-- What an object has under a key. -/
def field (key : String) : Json → Option Json
  | obj fields => fields.lookup key
  | _ => none

def object : Json → Option (List (String × Json))
  | obj fields => some fields
  | _ => none

end Json

/-- The mapping that the reply holds. -/
def givenMapping (loads : Loads) (reply : String) : Option (List (String × Json)) := do
  let data ← (loads reply).toOption
  (← data.field "mapping").object

/-- The fields of an object that has some. -/
def Json.filled (v : Json) : Option (List (String × Json)) :=
  v.object.filter fun fields => !fields.isEmpty

/-- The mapping, not empty, that the value under "sections" holds for a section. -/
def Json.sectionMapping (data : Json) (name : String) : Option (List (String × Json)) :=
  ((data.field name).bind (Json.field "mapping")).bind Json.filled

def givenSectionMapping (loads : Loads) (reply : String) (name : String) :
    Option (List (String × Json)) := do
  let data ← (loads reply).toOption
  (← data.field "sections").sectionMapping name

/-- A given mapping of a section, or the identity on its columns. -/
def mappingOr (rows : List Row) : Option (List (String × Json)) → Mapping
  | some mapping => mapping.map fun y => (some y.1, y.2)
  | none => identityMapping rows

/-- Neither raises, and both give what the reply holds. -/
structure ReadsReply (loads : Loads) (reply : String) (sections : Sections) : Prop where
  one : parseMappingResponse loads reply = .ok ((givenMapping loads reply).getD [])
  batch : parseBatchMappingResponse loads reply sections = .ok ((askedSections sections).map fun x =>
    (x.1, mappingOr x.2 (givenSectionMapping loads reply x.1)))

/-- The reply is not JSON, or an object whose parts are objects where they are used. -/
structure WellShaped (loads : Loads) (reply : String) (sections : Sections) : Prop where
  loaded : ∀ e, loads reply = .error e → e = .decode
  isObject : ∀ data, loads reply = .ok data → data.IsObject
  mapping : ∀ data v, loads reply = .ok data → data.field "mapping" = some v → v.IsObject
  parts : ∀ data v, loads reply = .ok data → data.field "sections" = some v →
    askedSections sections ≠ [] → v.IsObject
  part : ∀ data parts, loads reply = .ok data → data.field "sections" = some parts →
    ∀ x ∈ askedSections sections, ∀ raw v, parts.field x.1 = some raw →
      raw.field "mapping" = some v → v.truthy = true → v.IsObject

/-! ### One section -/

section One

variable {loads : Loads} {reply : String} {data : Json}

theorem items_eq_ok_iff {v : Json} {fields : List (String × Json)} :
    v.items = .ok fields ↔ v.object = some fields := by
  cases v <;> simp [Json.items, Json.object]

theorem isObject_iff {v : Json} : v.IsObject ↔ ∃ fields, v.object = some fields := by
  cases v <;> simp [Json.IsObject, Json.object]

theorem parseMappingResponse_of_loaded (loaded : loads reply = .ok data) :
    parseMappingResponse loads reply = ((data.field "mapping").map Json.items).getD (.ok []) := by
  simp only [parseMappingResponse, load, loaded]
  cases data with
  | obj fields =>
      simp only [Json.field]
      cases found : fields.lookup "mapping" with
      | none =>
          have missing : (Json.obj fields).item "mapping" = .error .keyError := by
            simp only [Json.item, found]
          show tryCatch ((Json.obj fields).item "mapping" >>= Json.items) _ = _
          rw [missing]
          rfl
      | some v =>
          have there : (Json.obj fields).item "mapping" = .ok v := by
            simp only [Json.item, found]
          show tryCatch ((Json.obj fields).item "mapping" >>= Json.items) _ = _
          rw [there]
          cases v <;> rfl
  | _ => rfl

/-- What the reply is does not matter, as long as its mapping is an object. -/
theorem parseMappingResponse_iff :
    parseMappingResponse loads reply = .ok ((givenMapping loads reply).getD []) ↔
      (∀ e, loads reply = .error e → e = .decode) ∧
        ∀ data v, loads reply = .ok data → data.field "mapping" = some v → v.IsObject := by
  cases loaded : loads reply with
  | error e =>
      have nothing : givenMapping loads reply = none := by
        simp only [givenMapping, loaded]
        rfl
      rw [nothing]
      simp only [parseMappingResponse, load, loaded]
      cases e with
      | decode =>
          refine ⟨fun _ => ⟨?_, nofun⟩, fun _ => rfl⟩
          rintro _ ⟨⟩
          rfl
      -- only the decoding error is caught
      | digits => exact ⟨nofun, fun h => nomatch h.1 _ rfl⟩
      | recursion => exact ⟨nofun, fun h => nomatch h.1 _ rfl⟩
  | ok data =>
      rw [parseMappingResponse_of_loaded loaded]
      have given : givenMapping loads reply = (data.field "mapping").bind Json.object := by
        simp only [givenMapping, loaded]
        rfl
      rw [given]
      cases found : data.field "mapping" with
      | none =>
          refine ⟨fun _ => ⟨nofun, ?_⟩, fun _ => rfl⟩
          rintro _ v ⟨⟩ there
          rw [found] at there
          cases there
      | some v =>
          show v.items = .ok ((Json.object v).getD []) ↔ _
          constructor
          · intro read
            refine ⟨nofun, ?_⟩
            rintro _ u ⟨⟩ there
            cases found.symm.trans there
            exact isObject_iff.mpr ⟨_, items_eq_ok_iff.mp read⟩
          · rintro ⟨_, shape⟩
            obtain ⟨fields, there⟩ := isObject_iff.mp (shape data v rfl found)
            rw [there]
            exact items_eq_ok_iff.mpr there

end One

/-! ### All sections -/

section Batch

variable {loads : Loads} {reply : String} {data : Json} {sections : Sections}

theorem useMapping_iff {rows : List Row} {v : Json} :
    useMapping rows v = .ok (mappingOr rows v.filled) ↔ (v.truthy = true → v.IsObject) := by
  unfold useMapping
  cases useful : v.truthy with
  | false =>
      refine ⟨fun _ => nofun, fun _ => ?_⟩
      have empty : v.filled = none := by
        cases v with
        | obj fields =>
            simp only [Json.truthy] at useful
            simp only [Json.filled, Json.object, Option.filter, useful]
            rfl
        | _ => rfl
      rw [empty]
      rfl
  | true =>
      cases v with
      | obj fields =>
          refine ⟨fun _ _ => trivial, fun _ => ?_⟩
          simp only [Json.truthy] at useful
          simp only [Json.filled, Json.object, Option.filter, useful]
          rfl
      | _ => exact ⟨nofun, fun shape => (shape rfl).elim⟩

/-- What a section's mapping is, where the value under "sections" is an object. -/
theorem sectionMapping_eq {parts : Json} (isObject : parts.IsObject) (name : String)
    (rows : List Row) : sectionMapping parts name rows =
      useMapping rows (((parts.field name).bind (Json.field "mapping")).getD (.obj [])) := by
  obtain ⟨data, rfl⟩ : ∃ data, parts = .obj data := by
    cases parts <;> first | exact isObject.elim | exact ⟨_, rfl⟩
  simp only [sectionMapping, Json.get, Json.field]
  cases data.lookup name with
  | none => rfl
  | some raw => cases raw <;> rfl

/-- A section is read unless something else than an object is used as its mapping. -/
theorem sectionMapping_iff {parts : Json} (isObject : parts.IsObject) (name : String)
    (rows : List Row) :
    sectionMapping parts name rows = .ok (mappingOr rows (parts.sectionMapping name)) ↔
      ∀ raw v, parts.field name = some raw → raw.field "mapping" = some v → v.truthy = true →
        v.IsObject := by
  rw [sectionMapping_eq isObject, Json.sectionMapping]
  cases found : parts.field name with
  | none => exact ⟨fun _ => nofun, fun _ => rfl⟩
  | some raw =>
      simp only [Option.bind_some]
      cases given : raw.field "mapping" with
      | none =>
          refine ⟨fun _ => ?_, fun _ => rfl⟩
          rintro _ v ⟨⟩ there
          cases given.symm.trans there
      | some v =>
          rw [Option.getD_some, Option.bind_some, useMapping_iff]
          constructor
          · rintro shape _ u ⟨⟩ there
            cases given.symm.trans there
            exact shape
          · intro shape
            exact shape raw v rfl given

/-- The value under "sections", as it is used. -/
theorem sectionData_of_loaded (loaded : loads reply = .ok data) :
    (tryCatch (do
      let data ← load loads reply
      data.get "sections") fun e =>
        if e = .jsonDecodeError ∨ e = .typeError then pure (.obj []) else throw e :
          Except Exc Json) = data.get "sections" := by
  simp only [load, loaded]
  cases data <;> rfl

/-- The sections are read one by one. -/
theorem mapM_sectionMapping_iff (parts : Json) (given : String → Option (List (String × Json)))
    (asked : List (String × List Row)) :
    (asked.mapM fun x => do return (x.1, ← sectionMapping parts x.1 x.2)) =
        .ok (asked.map fun x => (x.1, mappingOr x.2 (given x.1))) ↔
      ∀ x ∈ asked, sectionMapping parts x.1 x.2 = .ok (mappingOr x.2 (given x.1)) := by
  rw [mapM_eq_ok_map_iff]
  refine forall₂_congr fun x _ => ?_
  cases sectionMapping parts x.1 x.2 with
  | error e => exact ⟨nofun, nofun⟩
  | ok mapping => simp [bind, Except.bind, pure, Except.pure]

theorem sectionMapping_of_notObject {parts : Json} (other : ¬ parts.IsObject) (name : String)
    (rows : List Row) : sectionMapping parts name rows = .error .attributeError := by
  cases parts with
  | obj data => exact absurd trivial other
  | _ => rfl

theorem parseBatchMappingResponse_of_loaded (loaded : loads reply = .ok data) :
    parseBatchMappingResponse loads reply sections = .ok ((askedSections sections).map fun x =>
      (x.1, mappingOr x.2 (givenSectionMapping loads reply x.1))) ↔
        data.IsObject ∧
          (∀ v, data.field "sections" = some v → askedSections sections ≠ [] → v.IsObject) ∧
            ∀ parts, data.field "sections" = some parts → ∀ x ∈ askedSections sections, ∀ raw v,
              parts.field x.1 = some raw → raw.field "mapping" = some v → v.truthy = true →
                v.IsObject := by
  unfold parseBatchMappingResponse
  rw [sectionData_of_loaded loaded]
  have given (name : String) : givenSectionMapping loads reply name =
      (data.field "sections").bind fun parts => parts.sectionMapping name := by
    simp only [givenSectionMapping, loaded]
    rfl
  simp only [given]
  cases data with
  | obj fields =>
      simp only [Json.get, Json.field]
      cases found : fields.lookup "sections" with
      | none =>
          refine ⟨fun _ => ⟨trivial, nofun, nofun⟩, fun _ => ?_⟩
          exact (mapM_sectionMapping_iff (.obj []) (fun _ => none) _).mpr
            fun _ _ => rfl
      | some parts =>
          refine (mapM_sectionMapping_iff parts parts.sectionMapping _).trans ?_
          -- sections that are no object raise as soon as one is asked for
          by_cases isObject : parts.IsObject
          · simp only [sectionMapping_iff isObject]
            constructor
            · intro read
              refine ⟨trivial, ?_, ?_⟩
              · rintro _ ⟨⟩ _
                exact isObject
              · rintro _ ⟨⟩
                exact read
            · rintro ⟨_, _, shape⟩
              exact shape parts rfl
          · constructor
            · intro read
              have none : askedSections sections = [] := by
                refine List.eq_nil_iff_forall_not_mem.mpr fun x hx => ?_
                have raises := sectionMapping_of_notObject isObject x.1 x.2
                rw [read x hx] at raises
                cases raises
              exact ⟨trivial, fun _ _ some => absurd none some,
                fun _ _ x hx => absurd hx (none ▸ List.not_mem_nil)⟩
            · rintro ⟨_, shape, _⟩ x hx
              exact absurd (shape parts rfl (List.ne_nil_of_mem hx)) isObject
  | _ => exact ⟨nofun, fun h => h.1.elim⟩

/-- Without JSON every section is mapped to itself. -/
theorem parseBatchMappingResponse_of_error {e : LoadError} (failed : loads reply = .error e) :
    parseBatchMappingResponse loads reply sections = .ok ((askedSections sections).map fun x =>
      (x.1, mappingOr x.2 (givenSectionMapping loads reply x.1))) ↔ e = .decode := by
  have given (name : String) : givenSectionMapping loads reply name = none := by
    simp only [givenSectionMapping, failed]
    rfl
  simp only [parseBatchMappingResponse, given, load, failed]
  cases e with
  | decode =>
      refine ⟨fun _ => rfl, fun _ => ?_⟩
      exact (mapM_sectionMapping_iff (.obj []) (fun _ => none) _).mpr fun _ _ => rfl
  | digits => exact ⟨nofun, nofun⟩
  | recursion => exact ⟨nofun, nofun⟩

/-- Both replies are read exactly when the reply is of the shape that is asked for, or
is not JSON at all. Text that is not JSON gives no mapping, as promised; a reply that is
JSON and has another value where an object is used raises `AttributeError`, which is not
among the exceptions that are caught. -/
theorem reads_reply_iff (loads : Loads) (reply : String) (sections : Sections) :
    ReadsReply loads reply sections ↔ WellShaped loads reply sections := by
  -- an error of the loader, or a value of some shape
  cases loaded : loads reply with
  | error e =>
      constructor
      · rintro ⟨_, batch⟩
        have decode := (parseBatchMappingResponse_of_error loaded).mp batch
        refine ⟨?_, ?_, ?_, ?_, ?_⟩
        · intro e' failed
          cases loaded.symm.trans failed
          exact decode
        · exact fun data there => nomatch loaded.symm.trans there
        · exact fun data v there => nomatch loaded.symm.trans there
        · exact fun data v there => nomatch loaded.symm.trans there
        · exact fun data v there => nomatch loaded.symm.trans there
      · intro shape
        have decode := shape.loaded e loaded
        refine ⟨parseMappingResponse_iff.mpr ⟨shape.loaded, shape.mapping⟩, ?_⟩
        exact (parseBatchMappingResponse_of_error loaded).mpr decode
  | ok data =>
      have only : ∀ data', loads reply = .ok data' → data' = data := fun data' h => by
        cases loaded.symm.trans h
        rfl
      constructor
      · rintro ⟨one, batch⟩
        obtain ⟨known, mapping⟩ := parseMappingResponse_iff.mp one
        obtain ⟨isObject, parts, part⟩ := (parseBatchMappingResponse_of_loaded loaded).mp batch
        refine ⟨known, ?_, mapping, ?_, ?_⟩
        · intro data' h
          rw [only data' h]
          exact isObject
        · intro data' v h
          rw [only data' h]
          exact parts v
        · intro data' v h
          rw [only data' h]
          exact part v
      · intro shape
        exact ⟨parseMappingResponse_iff.mpr ⟨shape.loaded, shape.mapping⟩,
          (parseBatchMappingResponse_of_loaded loaded).mpr ⟨shape.isObject data loaded,
            fun v => shape.parts data v loaded, fun v => shape.part data v loaded⟩⟩

end Batch

/-! ### A list for a mapping -/

namespace Sample

/-- A reply with a list where the mapping should be. -/
def listReply : String := "\x7b\"mapping\": []\x7d"

/-- `json.loads` on that reply, and on texts that are not JSON. -/
def loads (reply : String) : Except LoadError Json :=
  if reply = listReply then .ok (.obj [("mapping", .arr [])]) else .error .decode

/-- One shot with its date. -/
def dated : Sections := .ofList [("Brew_Log", [.ofList [(some "Date", .text "2026-01-02")]])]

/-- The list has no `items`. -/
theorem list_reply_raises : ¬ ∀ (loads : Loads) (reply : String) (sections : Sections),
    ReadsReply loads reply sections := by
  intro reads
  obtain ⟨_, shape⟩ := parseMappingResponse_iff.mp (reads loads listReply dated).one
  exact shape (.obj [("mapping", .arr [])]) (.arr []) rfl rfl

end Sample

end EspressoLogs.Importer
