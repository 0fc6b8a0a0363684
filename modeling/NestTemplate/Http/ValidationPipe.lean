import NestTemplate.Common.Action
import NestTemplate.Http.Pages
import NestTemplate.Http.Validation

/-!
# The global `ValidationPipe`

With `transform` and `whitelist` the pipe hands a handler a new instance of the
DTO: the decorated properties the request has, and the initial values of those
it has not.

* `get?_plainToInstance`: what each property of the instance is.
* `transform_eq_ok`: the pipe lets a request through iff the instance is valid.
-/

namespace NestTemplate

open Common

/-- The decorated properties of a DTO, with their initial values. -/
abbrev Fields := List (String × Option Json)

/-- The instance made from a request, without the properties that are not decorated: the
    constructor creates the properties with an initial value, the others follow in the order of
    the request. -/
def instanceObject (fields : Fields) (request : JsObject Json) : JsObject Json :=
  (request.entries.filter (·.1 ∈ fields.map Prod.fst)).foldl (fun o e => o.set e.1 e.2)
    (.ofList (fields.filterMap fun f => f.2.map (f.1, ·)))

/-- The instance as the value that is validated and handed on. -/
def plainToInstance (fields : Fields) (request : JsObject Json) : Json :=
  .obj (instanceObject fields request).properties

/-- `transform`. -/
def ValidationPipe.transform (fields : Fields) (properties : List Property)
    (request : JsObject Json) : Except Failure Json :=
  let entity := plainToInstance fields request
  match propertyErrors entity properties with
  | .ok [] => .ok entity
  | .ok errors => .error (.unprocessable errors)
  | .error e => .error e

theorem ValidationPipe.transform_eq_ok {fields : Fields} {properties : List Property}
    {request : JsObject Json} {o : Json} :
    transform fields properties request = .ok o ↔
      (∀ p ∈ properties, p.Holds (plainToInstance fields request)) ∧
        o = plainToInstance fields request := by
  rw [← forall₂_congr fun p _ => @Property.errors_eq_nil (plainToInstance fields request) p,
    ← propertyErrors_eq_nil]
  unfold transform
  dsimp only
  cases propertyErrors (plainToInstance fields request) properties with
  | error e => simp
  | ok errors => cases errors <;> simp [eq_comm]

theorem ValidationPipe.holds_of_toOption {fields : Fields} {properties : List Property}
    {request : JsObject Json}
    (h : (transform fields properties request).toOption.isSome = true) :
    ∀ p ∈ properties, p.Holds (plainToInstance fields request) := by
  cases htransform : transform fields properties request with
  | error e => rw [htransform] at h; cases h
  | ok o => exact (transform_eq_ok.mp htransform).1

/-- A handler that makes its result from the instance. -/
theorem ValidationPipe.transform_map_eq_ok {α : Type} {fields : Fields}
    {properties : List Property} {request : JsObject Json} {f : Json → α} {a : α} :
    (transform fields properties request).map f = .ok a ↔
      (∀ p ∈ properties, p.Holds (plainToInstance fields request)) ∧
        a = f (plainToInstance fields request) := by
  simp only [Action.map_eq_ok, transform_eq_ok]
  constructor
  · rintro ⟨o, ⟨hvalid, rfl⟩, rfl⟩
    exact ⟨hvalid, rfl⟩
  · rintro ⟨hvalid, rfl⟩
    exact ⟨_, ⟨hvalid, rfl⟩, rfl⟩

/-! ## The properties of the instance -/

/-- Every property comes from the request or from the constructor. -/
theorem mem_instanceObject {fields : Fields} {request : JsObject Json} {e : String × Json}
    (he : e ∈ instanceObject fields request) : e ∈ request ∨ ∃ f ∈ fields, f.2 = some e.2 := by
  rcases JsObject.mem_of_mem_foldl_set he with he | he
  · exact .inl (JsObject.mem_entries.mp (List.mem_filter.mp he).1)
  · obtain ⟨f, hf, hfv⟩ := List.mem_filterMap.mp (JsObject.mem_of_mem_ofList he)
    obtain ⟨v, hv, rfl⟩ := Option.map_eq_some_iff.mp hfv
    exact .inr ⟨f, hf, hv⟩

theorem nodup_initialised {fields : Fields} (hnodup : (fields.map Prod.fst).Nodup) :
    ((fields.filterMap fun f => f.2.map (f.1, ·)).map Prod.fst).Nodup := by
  refine hnodup.sublist ?_
  clear hnodup
  induction fields with
  | nil => exact List.Sublist.slnil
  | cons f fields ih =>
    obtain ⟨name, initial⟩ := f
    cases initial with
    | none => exact ih.cons _
    | some v => exact ih.cons_cons _

theorem mem_initialised {fields : Fields} (hnodup : (fields.map Prod.fst).Nodup) {name : String}
    {initial : Option Json} (h : (name, initial) ∈ fields) (v : Json) :
    (name, v) ∈ fields.filterMap (fun f => f.2.map (f.1, ·)) ↔ initial = some v := by
  rw [List.mem_filterMap]
  constructor
  · rintro ⟨f, hf, hv⟩
    obtain ⟨w, hw, hfv⟩ := Option.map_eq_some_iff.mp hv
    cases hfv
    exact (congrArg Prod.snd (List.inj_on_of_nodup_map hnodup h hf rfl)).trans hw
  · rintro rfl
    exact ⟨_, h, rfl⟩

/-- A property of the instance is the request's, or its initial value. -/
theorem get?_plainToInstance {fields : Fields} (hnodup : (fields.map Prod.fst).Nodup)
    (request : JsObject Json) {name : String} {initial : Option Json}
    (h : (name, initial) ∈ fields) :
    (plainToInstance fields request).get? name = (request.get? name).or initial := by
  have hname : name ∈ fields.map Prod.fst := List.mem_map_of_mem h
  have hsent : ((request.entries.filter (·.1 ∈ fields.map Prod.fst)).map Prod.fst).Nodup :=
    request.entries_nodup.sublist (List.filter_sublist.map _)
  have hown : name ∈ (request.entries.filter (·.1 ∈ fields.map Prod.fst)).map Prod.fst ↔
      request.hasOwn name := by
    rw [JsObject.hasOwn_iff]
    constructor
    · intro hmem
      obtain ⟨⟨k, v⟩, hv, rfl⟩ := List.mem_map.mp hmem
      exact ⟨v, JsObject.mem_entries.mp (List.mem_filter.mp hv).1⟩
    · rintro ⟨v, hv⟩
      exact List.mem_map.mpr ⟨(name, v),
        List.mem_filter.mpr ⟨JsObject.mem_entries.mpr hv, decide_eq_true hname⟩, rfl⟩
  -- the constructor leaves the property with its initial value
  have hconstructed : ∀ v, (name, v) ∈ JsObject.ofList (fields.filterMap fun f => f.2.map (f.1, ·)) ↔
      initial = some v := by
    intro v
    rw [JsObject.mem_def, JsObject.ofList_properties (nodup_initialised hnodup),
      mem_initialised hnodup h]
  show Json.lookup name (instanceObject fields request).properties = _
  rw [lookup_properties]
  refine Option.ext fun v => ?_
  rw [JsObject.get?_eq_some, instanceObject, JsObject.mem_foldl_set hsent, hconstructed,
    Option.or_eq_some_iff, JsObject.get?_eq_some, JsObject.get?_eq_none, hown, List.mem_filter,
    decide_eq_true_eq, and_iff_left hname, JsObject.mem_entries]

theorem noNumberMembers_iff {ms : List (String × Json)} :
    Json.noNumberMembers ms = true ↔ ∀ e ∈ ms, e.2.noNumber = true := by
  induction ms with
  | nil => simp [Json.noNumberMembers]
  | cons e ms ih => rw [Json.noNumberMembers, Bool.and_eq_true, ih, List.forall_mem_cons]

/-- An instance of values without numbers has none. -/
theorem noNumber_plainToInstance {fields : Fields} {request : JsObject Json}
    (hinitial : ∀ f ∈ fields, ∀ v ∈ f.2, v.noNumber = true)
    (hrequest : ∀ name, ∀ v ∈ request.get? name, v.noNumber = true) :
    (plainToInstance fields request).noNumber = true := by
  refine noNumberMembers_iff.mpr fun e he => ?_
  rcases mem_instanceObject he with he | ⟨f, hf, hv⟩
  · exact hrequest e.1 e.2 (JsObject.get?_eq_some.mpr he)
  · exact hinitial f hf e.2 hv

end NestTemplate
