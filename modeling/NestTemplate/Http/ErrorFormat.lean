import NestTemplate.Common.JsObject
import NestTemplate.Http.Validation

/-!
# The errors of a form

`ErrorValidationFormatFilter.formattedErrors` turns the tree of validation errors
into one object, from the dotted path of a property to its messages.

* `formattedErrors_spec`: the object has the paths with a message, each with its
  messages, where no two nodes have one path and none becomes `__proto__`.
* `formattedErrors_proto_dropped`: a prefix and a property that become `__proto__`.
-/

namespace NestTemplate

open Common

/-- `interfaces/validation-errors-format.ts`. -/
abbrev ValidationErrorsFormat := JsObject (List String)

namespace ErrorValidationFormatFilter

/-- The second loop of `formattedErrors`: the keys with messages. -/
def finalFormattedErrors (formattedErrors : ValidationErrorsFormat) : ValidationErrorsFormat :=
  formattedErrors.entries.foldl
    (fun final e => if e.2.length > 0 then final.assign e.1 e.2 else final) ∅

mutual

/-- One turn of the first loop of `formattedErrors`. -/
def addError (propertyPrefix : String) (formattedErrors : ValidationErrorsFormat) :
    ValidationError → ValidationErrorsFormat
  | ⟨property, constraints, children⟩ =>
    let key := propertyPrefix ++ property
    -- `formattedErrors[key] = []`, and a `push` for every constraint
    let formattedErrors := constraints.foldl (fun o c => o.modify key (· ++ [c.2]))
      (formattedErrors.assign key [])
    if children.length > 0 then
      (finalFormattedErrors (addErrors (key ++ ".") ∅ children)).spread formattedErrors
    else formattedErrors

/-- The first loop of `formattedErrors`. -/
def addErrors (propertyPrefix : String) (formattedErrors : ValidationErrorsFormat) :
    List ValidationError → ValidationErrorsFormat
  | [] => formattedErrors
  | error :: errors =>
    addErrors propertyPrefix (addError propertyPrefix formattedErrors error) errors

end

/-- `formattedErrors(errors, propertyPrefix)`. -/
def formattedErrors (errors : List ValidationError) (propertyPrefix : String := "") :
    ValidationErrorsFormat :=
  finalFormattedErrors (addErrors propertyPrefix ∅ errors)

/-! ## The nodes of a forest -/

/-- A node: its path and its messages. -/
abbrev Node := String × List String

/-- The node with `p` before its path. -/
def prefixed (p : String) (n : Node) : Node := (p ++ n.1, n.2)

mutual

/-- An error's node and those below it, by their dotted paths. -/
def nodes : ValidationError → List Node
  | ⟨property, constraints, children⟩ =>
    (property, constraints.map Prod.snd) :: (forestNodes children).map (prefixed (property ++ "."))

def forestNodes : List ValidationError → List Node
  | [] => []
  | error :: errors => nodes error ++ forestNodes errors

end

mutual

def constraintCount : ValidationError → ℕ
  | ⟨_, constraints, children⟩ => constraints.length + forestConstraintCount children

/-- The number of constraints in the forest. -/
def forestConstraintCount : List ValidationError → ℕ
  | [] => 0
  | error :: errors => constraintCount error + forestConstraintCount errors

end

def messageCount (ns : List Node) : ℕ := (ns.map fun n => n.2.length).sum

theorem messageCount_append (ns ms : List Node) :
    messageCount (ns ++ ms) = messageCount ns + messageCount ms := by
  simp [messageCount]

theorem messageCount_prefixed (p : String) (ns : List Node) :
    messageCount (ns.map (prefixed p)) = messageCount ns := by
  simp [messageCount, prefixed, Function.comp_def]

theorem messageCount_filter (ns : List Node) :
    messageCount (ns.filter (·.2 ≠ [])) = messageCount ns := by
  induction ns with
  | nil => rfl
  | cons n ns ih =>
    have hcons : messageCount (n :: ns) = n.2.length + messageCount ns := by simp [messageCount]
    rw [hcons, ← ih]
    by_cases hn : n.2 = [] <;> simp [hn, messageCount]

mutual

theorem messageCount_nodes (error : ValidationError) :
    messageCount (nodes error) = constraintCount error := by
  match error with
  | ⟨property, constraints, children⟩ =>
    rw [nodes, constraintCount, ← messageCount_forestNodes children,
      ← messageCount_prefixed (property ++ ".") (forestNodes children)]
    simp [messageCount]

theorem messageCount_forestNodes (errors : List ValidationError) :
    messageCount (forestNodes errors) = forestConstraintCount errors := by
  match errors with
  | [] => rfl
  | error :: errors =>
    rw [forestNodes, messageCount_append, messageCount_nodes, messageCount_forestNodes,
      forestConstraintCount]

end

/-! ## What the loops collect -/

/-- The object has the nodes with a message, and no property that is none of the nodes. -/
structure Collects (o : ValidationErrorsFormat) (ns : List Node) : Prop where
  sound : ∀ e ∈ o, e ∈ ns
  complete : ∀ n ∈ ns, n.2 ≠ [] → n ∈ o

theorem Collects.key_mem {o : ValidationErrorsFormat} {ns : List Node} (h : Collects o ns)
    {key : String} (hkey : o.hasOwn key) : key ∈ ns.map Prod.fst := by
  obtain ⟨v, hv⟩ := JsObject.hasOwn_iff.1 hkey
  exact List.mem_map_of_mem (h.sound _ hv)

/-- The pushes append the messages to the array of the key. -/
theorem mem_foldl_push {key : String} (constraints : List (String × String)) {ms : List String}
    {o : ValidationErrorsFormat} (hkey : (key, ms) ∈ o) {e : Node} :
    e ∈ constraints.foldl (fun o c => o.modify key (· ++ [c.2])) o ↔
      e = (key, ms ++ constraints.map Prod.snd) ∨ (e.1 ≠ key ∧ e ∈ o) := by
  induction constraints generalizing o ms with
  | nil =>
    rw [List.foldl_nil, List.map_nil, List.append_nil]
    refine ⟨fun he => or_iff_not_imp_right.2 fun hne => ?_, ?_⟩
    · have hk : e.1 = key := by
        by_contra hk
        exact hne ⟨hk, he⟩
      exact Prod.ext hk (JsObject.value_unique (by rw [← hk]; exact he) hkey)
    · rintro (rfl | ⟨-, he⟩)
      · exact hkey
      · exact he
  | cons c cs ih =>
    have hpush : (key, ms ++ [c.2]) ∈ o.modify key (· ++ [c.2]) :=
      JsObject.mem_modify.2 (.inr ⟨ms, hkey, rfl⟩)
    rw [List.foldl_cons, ih hpush, List.append_assoc, List.map_cons, List.singleton_append]
    refine or_congr_right (and_congr_right fun hne => ?_)
    rw [JsObject.mem_modify]
    constructor
    · rintro (⟨-, he⟩ | ⟨_, -, rfl⟩)
      · exact he
      · exact absurd rfl hne
    · exact fun he => .inl ⟨hne, he⟩

/-- The second loop keeps the properties with messages. -/
theorem mem_finalFormattedErrors {o : ValidationErrorsFormat} (hproto : ¬ o.hasOwn "__proto__")
    {e : Node} : e ∈ finalFormattedErrors o ↔ e ∈ o ∧ e.2 ≠ [] := by
  have hassign : finalFormattedErrors o =
      (o.entries.filter (·.2.length > 0)).foldl (fun final e => final.set e.1 e.2) ∅ := by
    rw [List.foldl_filter, finalFormattedErrors]
    refine List.foldl_ext _ _ _ fun final e he => ?_
    have hkey : e.1 ≠ "__proto__" := by
      intro hkey
      exact hproto (JsObject.hasOwn_iff.2 ⟨e.2, hkey ▸ JsObject.mem_entries.1 he⟩)
    simp only [JsObject.assign_of_ne hkey, decide_eq_true_eq]
  have hnodup : ((o.entries.filter (·.2.length > 0)).map Prod.fst).Nodup :=
    (List.filter_sublist.map _).nodup o.entries_nodup
  rw [hassign, JsObject.mem_foldl_set hnodup, List.mem_filter, JsObject.mem_entries]
  simp [List.length_pos_iff]

theorem Collects.empty : Collects ∅ [] := ⟨by simp, by simp⟩

/-- The node itself. -/
theorem Collects.addNode {key : String} (constraints : List (String × String))
    {o : ValidationErrorsFormat} {ns : List Node} (h : Collects o ns) (hkey : key ∉ ns.map Prod.fst)
    (hproto : key ≠ "__proto__") :
    Collects (constraints.foldl (fun o c => o.modify key (· ++ [c.2])) (o.assign key []))
      (ns ++ [(key, constraints.map Prod.snd)]) := by
  have hassign : (key, []) ∈ o.assign key [] := by
    rw [JsObject.assign_of_ne hproto]
    exact JsObject.mem_set.2 (.inl rfl)
  constructor
  · intro e he
    rcases (mem_foldl_push constraints hassign).1 he with rfl | ⟨hne, he⟩
    · exact List.mem_append_right _ (List.mem_singleton_self _)
    · rw [JsObject.assign_of_ne hproto, JsObject.mem_set] at he
      rcases he with rfl | ⟨-, he⟩
      · exact absurd rfl hne
      · exact List.mem_append_left _ (h.sound e he)
  · intro n hn hmessages
    refine (mem_foldl_push constraints hassign).2 ?_
    rcases List.mem_append.1 hn with hn | hn
    · have hne : n.1 ≠ key := fun heq => hkey (heq ▸ List.mem_map_of_mem hn)
      rw [JsObject.assign_of_ne hproto, JsObject.mem_set]
      exact .inr ⟨hne, .inr ⟨hne, h.complete n hn hmessages⟩⟩
    · exact .inl (List.mem_singleton.1 hn)

/-- The spread of what the children gave, where all paths differ. -/
theorem Collects.spread {o children : ValidationErrorsFormat} {ns below : List Node}
    (h : Collects o ns) (hchildren : Collects children below)
    (hpaths : ((ns ++ below).map Prod.fst).Nodup) (hproto : "__proto__" ∉ below.map Prod.fst) :
    Collects ((finalFormattedErrors children).spread o) (ns ++ below) := by
  have hfinal {e : Node} := mem_finalFormattedErrors (e := e) fun hown =>
    hproto (hchildren.key_mem hown)
  rw [List.map_append, List.nodup_append] at hpaths
  constructor
  · intro e he
    rcases JsObject.mem_spread.1 he with he | ⟨-, he⟩
    · exact List.mem_append_left _ (h.sound e he)
    · exact List.mem_append_right _ (hchildren.sound e (hfinal.1 he).1)
  · intro n hn hmessages
    refine JsObject.mem_spread.2 ?_
    rcases List.mem_append.1 hn with hn | hn
    · exact .inl (h.complete n hn hmessages)
    · refine .inr ⟨fun hown => ?_, hfinal.2 ⟨hchildren.complete n hn hmessages, hmessages⟩⟩
      exact hpaths.2.2 _ (h.key_mem hown) _ (List.mem_map_of_mem hn) rfl

mutual

/-- One error adds its node and those below it. -/
theorem Collects.addError {propertyPrefix : String} {o : ValidationErrorsFormat} {ns : List Node}
    (error : ValidationError) (h : Collects o ns)
    (hpaths : ((ns ++ (nodes error).map (prefixed propertyPrefix)).map Prod.fst).Nodup)
    (hproto : ∀ n ∈ nodes error, propertyPrefix ++ n.1 ≠ "__proto__") :
    Collects (addError propertyPrefix o error)
      (ns ++ (nodes error).map (prefixed propertyPrefix)) := by
  match error with
  | ⟨property, constraints, children⟩ =>
    have hsplit : ns ++ (nodes ⟨property, constraints, children⟩).map (prefixed propertyPrefix) =
        ns ++ [(propertyPrefix ++ property, constraints.map Prod.snd)] ++
          (forestNodes children).map (prefixed (propertyPrefix ++ property ++ ".")) := by
      simp [nodes, prefixed, String.append_assoc]
    rw [hsplit] at hpaths ⊢
    rw [nodes, List.forall_mem_cons, List.forall_mem_map] at hproto
    have hbelow : ∀ n ∈ forestNodes children,
        propertyPrefix ++ property ++ "." ++ n.1 ≠ "__proto__" := by
      intro n hn
      simpa [prefixed, String.append_assoc] using hproto.2 n hn
    have hkey : propertyPrefix ++ property ∉ ns.map Prod.fst := by
      rw [List.map_append, List.map_append, List.append_assoc, List.nodup_append] at hpaths
      exact fun hmem => hpaths.2.2 _ hmem _ (by simp) rfl
    have hnode := h.addNode constraints hkey hproto.1
    rw [ErrorValidationFormatFilter.addError]
    split
    · have hchildren := Collects.empty.addErrors children
        ((List.sublist_append_right _ _).map Prod.fst |>.nodup hpaths) hbelow
      refine hnode.spread hchildren hpaths ?_
      simpa [prefixed] using hbelow
    · rename_i hnone
      obtain rfl : children = [] := by simpa using hnone
      simpa [forestNodes] using hnode

/-- The loop adds the nodes of the errors. -/
theorem Collects.addErrors {propertyPrefix : String} {o : ValidationErrorsFormat} {ns : List Node}
    (errors : List ValidationError) (h : Collects o ns)
    (hpaths : ((ns ++ (forestNodes errors).map (prefixed propertyPrefix)).map Prod.fst).Nodup)
    (hproto : ∀ n ∈ forestNodes errors, propertyPrefix ++ n.1 ≠ "__proto__") :
    Collects (addErrors propertyPrefix o errors)
      (ns ++ (forestNodes errors).map (prefixed propertyPrefix)) := by
  match errors with
  | [] =>
    rw [forestNodes, List.map_nil, List.append_nil]
    exact h
  | error :: errors =>
    have hsplit : ns ++ (forestNodes (error :: errors)).map (prefixed propertyPrefix) =
        ns ++ (nodes error).map (prefixed propertyPrefix) ++
          (forestNodes errors).map (prefixed propertyPrefix) := by
      rw [forestNodes, List.map_append, List.append_assoc]
    rw [hsplit] at hpaths ⊢
    rw [forestNodes] at hproto
    have herror := h.addError error
      ((List.sublist_append_left _ _).map Prod.fst |>.nodup hpaths)
      fun n hn => hproto n (List.mem_append_left _ hn)
    exact herror.addErrors errors hpaths fun n hn => hproto n (List.mem_append_right _ hn)

end

theorem nodup_prefixed {errors : List ValidationError} (propertyPrefix : String)
    (hpaths : ((forestNodes errors).map Prod.fst).Nodup) :
    (((forestNodes errors).map (prefixed propertyPrefix)).map Prod.fst).Nodup := by
  have hinj : Function.Injective fun path : String => propertyPrefix ++ path := by
    intro a b hab
    simpa [String.ext_iff] using hab
  simpa [Function.comp_def, prefixed] using hpaths.map hinj

/-- The properties of the result are the nodes with a message. -/
theorem mem_formattedErrors {errors : List ValidationError} {propertyPrefix : String}
    (hpaths : ((forestNodes errors).map Prod.fst).Nodup)
    (hproto : ∀ n ∈ forestNodes errors, propertyPrefix ++ n.1 ≠ "__proto__") {e : Node} :
    e ∈ formattedErrors errors propertyPrefix ↔
      e ∈ (forestNodes errors).map (prefixed propertyPrefix) ∧ e.2 ≠ [] := by
  have hcollects := Collects.empty.addErrors errors (nodup_prefixed propertyPrefix hpaths) hproto
  rw [List.nil_append] at hcollects
  have hown : ¬ (addErrors propertyPrefix ∅ errors).hasOwn "__proto__" := by
    intro hown
    obtain ⟨n, hn, heq⟩ := List.mem_map.1 (hcollects.key_mem hown)
    obtain ⟨m, hm, rfl⟩ := List.mem_map.1 hn
    exact hproto m hm heq
  rw [formattedErrors, mem_finalFormattedErrors hown]
  exact and_congr_left fun hne => ⟨hcollects.sound e, fun he => hcollects.complete e he hne⟩

/-- **Main theorem**: the formatter loses and invents nothing. -/
theorem formattedErrors_spec {errors : List ValidationError} {propertyPrefix : String}
    (hpaths : ((forestNodes errors).map Prod.fst).Nodup)
    (hproto : ∀ n ∈ forestNodes errors, propertyPrefix ++ n.1 ≠ "__proto__") :
    (∀ key, (formattedErrors errors propertyPrefix).hasOwn key ↔
      ∃ n ∈ forestNodes errors, n.2 ≠ [] ∧ key = propertyPrefix ++ n.1) ∧
    (∀ n ∈ forestNodes errors, n.2 ≠ [] →
      (formattedErrors errors propertyPrefix).get? (propertyPrefix ++ n.1) = some n.2) ∧
    messageCount (formattedErrors errors propertyPrefix).entries =
      forestConstraintCount errors := by
  have hmem {e : Node} := mem_formattedErrors hpaths hproto (e := e)
  refine ⟨fun key => ?_, fun n hn hmessages => ?_, ?_⟩
  · rw [JsObject.hasOwn_iff]
    constructor
    · rintro ⟨messages, he⟩
      obtain ⟨hnode, hne⟩ := hmem.1 he
      obtain ⟨n, hn, heq⟩ := List.mem_map.1 hnode
      cases heq
      exact ⟨n, hn, hne, rfl⟩
    · rintro ⟨n, hn, hne, rfl⟩
      exact ⟨n.2, hmem.2 ⟨List.mem_map_of_mem hn, hne⟩⟩
  · rw [JsObject.get?_eq_some]
    exact hmem.2 ⟨List.mem_map_of_mem hn, hmessages⟩
  · -- the entries are the nodes with a message, in some order
    have hperm : (formattedErrors errors propertyPrefix).entries.Perm
        (((forestNodes errors).map (prefixed propertyPrefix)).filter (·.2 ≠ [])) := by
      refine (List.perm_ext_iff_of_nodup (List.Nodup.of_map _ (JsObject.entries_nodup _))
        ((List.Nodup.of_map _ (nodup_prefixed propertyPrefix hpaths)).filter _)).2 fun e => ?_
      rw [JsObject.mem_entries, hmem, List.mem_filter, decide_eq_true_eq]
    calc messageCount (formattedErrors errors propertyPrefix).entries
        = messageCount (((forestNodes errors).map (prefixed propertyPrefix)).filter (·.2 ≠ [])) :=
          (hperm.map _).sum_nat
      _ = forestConstraintCount errors := by
          rw [messageCount_filter, messageCount_prefixed, messageCount_forestNodes]

/-- An address without a street, in a form without a name. -/
theorem formattedErrors_spec_sample :
    messageCount (formattedErrors
      [⟨"name", [("isString", "name must be a string"), ("isNotEmpty", "name should not be empty")], []⟩,
        ⟨"address", [], [⟨"street", [("isString", "street must be a string")], []⟩]⟩]).entries = 3 :=
  (formattedErrors_spec (by decide) (by decide)).2.2

/-- A property whose prefixed path is `__proto__`. -/
def protoForest : List ValidationError := [⟨"to__", [("isString", "to__ must be a string")], []⟩]

/-- The path `__proto__` is made of a prefix and a property of another name, and its message is
    lost. -/
theorem formattedErrors_proto_dropped :
    ((forestNodes protoForest).map Prod.fst).Nodup ∧ (∀ e ∈ protoForest, e.property ≠ "__proto__") ∧
      ¬ (formattedErrors protoForest "__pro").hasOwn ("__pro" ++ "to__") ∧
      messageCount (formattedErrors protoForest "__pro").entries = 0 ∧
      forestConstraintCount protoForest = 1 := by
  decide

end ErrorValidationFormatFilter

end NestTemplate
