import Mathlib.Data.Finset.Card
import NestTemplate.Common.JsNumeral
import NestTemplate.Common.Table
import NestTemplate.Common.Template

/-!
# `environment/configs/databases.ts`

The read replicas are variables of the environment. Which variables count is
decided by a pattern without anchors, the index of the replica by a split and
`Number`, and the member that is set by a search for its name.

* `set_exactName`, `serverIndex_exactName`: the three agree on the names that are meant.
* `tracks_addVariable`: what one variable adds, where only such names match.
* `readsNamedVariables_iff`: for which environments the read list is what it is for.
-/

namespace NestTemplate

open Common

/-- `process.env`, in the order of `Object.keys`. -/
structure ProcessEnv where
  vars : List (String × String)
  nodup : (vars.map Prod.fst).Nodup

/-- `env[name]`. -/
def lookupVariable (vars : List (String × String)) (name : List Char) : Option String :=
  (vars.find? (·.1.toList = name)).map Prod.snd

/-- `ReadServerSetting`. The port is a number wherever it is set. -/
@[ext]
structure ReadServerSetting where
  host : Option String := none
  database : Option String := none
  username : Option String := none
  password : Option String := none
  port : JsDouble := .finite 3306

/-- `ReplicationOptions`. -/
structure ReplicationOptions where
  write : ReadServerSetting
  read : List ReadServerSetting

/-- The members that variables set. -/
inductive ReadField where
  | HOST
  | NAME
  | USERNAME
  | PASSWORD
  | PORT
  deriving DecidableEq

namespace ReadField

def text : ReadField → List Char
  | .HOST => "HOST".toList
  | .NAME => "NAME".toList
  | .USERNAME => "USERNAME".toList
  | .PASSWORD => "PASSWORD".toList
  | .PORT => "PORT".toList

def all : List ReadField := [.HOST, .NAME, .USERNAME, .PASSWORD, .PORT]

end ReadField

/-- `key.includes('_HOST_')` and its siblings. -/
def includesField (key : List Char) (field : ReadField) : Prop := '_' :: field.text ++ ['_'] <:+: key

instance (key : List Char) (field : ReadField) : Decidable (includesField key field) :=
  inferInstanceAs (Decidable (_ <:+: _))

/-- `setReadServerConfigValues`; `value` is `process.env[key]`. -/
def setReadServerConfigValues (key : List Char) (value : String)
    (readServerConfig : ReadServerSetting) : ReadServerSetting where
  host := if includesField key .HOST then some value else readServerConfig.host
  port := if includesField key .PORT then JsDouble.number value else readServerConfig.port
  database := if includesField key .NAME then some value else readServerConfig.database
  username := if includesField key .USERNAME then some value else readServerConfig.username
  password := if includesField key .PASSWORD then some value else readServerConfig.password

/-- What `readServerKeyCheck` looks for up to the first digit. -/
def readServerPrefix (field : ReadField) : List Char :=
  "DB_READ_".toList ++ field.text ++ "_SERVER_".toList

/-- `readServerKeyCheck.test(key)`: the rest of the digits may be empty. -/
def readServerKeyCheck (key : List Char) : Prop :=
  ∃ field ∈ ReadField.all, ∃ d ∈ "123456789".toList, readServerPrefix field ++ [d] <:+: key

instance (key : List Char) : Decidable (readServerKeyCheck key) :=
  decidable_of_iff (ReadField.all.any fun field => "123456789".toList.any fun d =>
    readServerPrefix field ++ [d] <:+: key) (by simp [readServerKeyCheck])

/-- `Number(key.split('_SERVER_')[1])`, as a key of `readServerMappings`. -/
def serverIndex (key : List Char) : JsDouble :=
  match splitFirst "_SERVER_".toList key with
  | none => .nan
  | some (_, rest) =>
    (JsDouble.number
      (String.ofList ((splitFirst "_SERVER_".toList rest).elim rest Prod.fst))).mapKey

/-- `readServerMappings`, in the order of insertion. -/
abbrev ServerMappings := List (JsDouble × ReadServerSetting)

/-- `readServerMappings.get(index)`. -/
def ServerMappings.get? (mappings : ServerMappings) (index : JsDouble) : Option ReadServerSetting :=
  (mappings.find? (·.1 = index)).map Prod.snd

/-- `readServerMappings.set(index, setting)`. -/
def ServerMappings.set (mappings : ServerMappings) (index : JsDouble) (setting : ReadServerSetting) :
    ServerMappings :=
  if index ∈ mappings.map Prod.fst then
    mappings.map fun entry => if entry.1 = index then (index, setting) else entry
  else mappings ++ [(index, setting)]

/-- The body of the loop. -/
def addVariable (mappings : ServerMappings) (entry : String × String) : ServerMappings :=
  let key := entry.1.toList
  if readServerKeyCheck key then
    let index := serverIndex key
    mappings.set index (setReadServerConfigValues key entry.2 ((mappings.get? index).getD {}))
  else mappings

/-- `readServerMappings` after the loop. -/
def readServerMappings (vars : List (String × String)) : ServerMappings :=
  vars.foldl addVariable []

/-- The `write` member. -/
def writeSetting (vars : List (String × String)) : ReadServerSetting where
  host := lookupVariable vars "DB_HOST".toList
  username := lookupVariable vars "DB_USERNAME".toList
  password := lookupVariable vars "DB_PASSWORD".toList
  database := lookupVariable vars "DB_NAME".toList
  port := ((lookupVariable vars "DB_PORT".toList).filter (· ≠ "")).elim (.finite 3306)
    JsDouble.parseFloat

/-- `readWriteClusterSettings`; `none` stands for `false`. -/
def readWriteClusterSettings (env : ProcessEnv) : Except String (Option ReplicationOptions) :=
  if lookupVariable env.vars "DB_USE_READ_WRITE_CLUSTER".toList ≠ some "true" then .ok none
  else
    let mappings := readServerMappings env.vars
    if mappings = [] then .error "Minimum of 1 read server mapping is required"
    else .ok (some { write := writeSetting env.vars, read := mappings.map Prod.snd })

/-! ## The variables that are meant -/

/-- A positive decimal number without a leading zero. -/
def IsServerNumber (i : List Char) : Prop :=
  ∃ d ds, i = d :: ds ∧ d ∈ "123456789".toList ∧ ∀ c ∈ ds, c.isDigit = true

/-- `DB_READ_<field>_SERVER_<i>`. -/
def exactName (field : ReadField) (i : List Char) : List Char := readServerPrefix field ++ i

/-- The name is one of those that are meant. -/
def IsExact (key : List Char) : Prop := ∃ field i, IsServerNumber i ∧ key = exactName field i

/-- A variable of the replica `i` is set. -/
def HasServer (vars : List (String × String)) (i : List Char) : Prop :=
  IsServerNumber i ∧ ∃ field, ∃ entry ∈ vars, entry.1.toList = exactName field i

/-- The settings of the replica `i`: the values of its variables, or the defaults. -/
def serverSetting (vars : List (String × String)) (i : List Char) : ReadServerSetting where
  host := lookupVariable vars (exactName .HOST i)
  database := lookupVariable vars (exactName .NAME i)
  username := lookupVariable vars (exactName .USERNAME i)
  password := lookupVariable vars (exactName .PASSWORD i)
  port := (lookupVariable vars (exactName .PORT i)).elim (.finite 3306) JsDouble.number

/-- One entry for each replica, in any order. -/
def IsReadList (vars : List (String × String)) (read : List ReadServerSetting) : Prop :=
  ∃ is : List (List Char), is.Nodup ∧ (∀ i, i ∈ is ↔ HasServer vars i) ∧
    read.Perm (is.map (serverSetting vars))

/-- An environment with replicas. -/
structure ReplicaEnv extends ProcessEnv where
  enabled : lookupVariable vars "DB_USE_READ_WRITE_CLUSTER".toList = some "true"
  server : ∃ i, HasServer vars i

/-- The same replicas: the variables that are meant are the same, in any order; the others may have
    any value, or be gone. -/
def ReplicaEnv.SameServers (env env' : ReplicaEnv) : Prop :=
  (∀ entry : String × String, IsExact entry.1.toList →
    (entry ∈ env'.vars ↔ entry ∈ env.vars)) ∧
  ∀ entry ∈ env'.vars, ¬ IsExact entry.1.toList → ∃ value, (entry.1, value) ∈ env.vars

/-- The read list comes from exactly the variables that are meant. -/
def ReadsNamedVariables (env : ReplicaEnv) : Prop :=
  ∀ env' : ReplicaEnv, env.SameServers env' → ∃ write read,
    readWriteClusterSettings env'.toProcessEnv = .ok (some { write, read }) ∧
      IsReadList env.vars read

/-! ## The three ways to read a name -/

/-- A text that ends in no digit does not reach into the digits behind another. -/
theorem infix_of_infix_append {needle before ds : List Char} {c : Char}
    (h : needle ++ [c] <:+: before ++ ds) (hc : c ∉ ds) : needle ++ [c] <:+: before := by
  obtain ⟨s, t, h⟩ := h
  rcases List.append_eq_append_iff.mp h with ⟨rest, hbefore, -⟩ | ⟨rest, hneedle, hds⟩
  · exact ⟨s, rest, hbefore.symm⟩
  · rcases List.eq_nil_or_concat rest with rfl | ⟨rest, d, rfl⟩
    · exact ⟨s, [], by simpa using hneedle⟩
    · have hd : c = d := by
        have := congrArg List.getLast? hneedle
        simpa [← List.append_assoc] using this
      exact absurd (by simp [hds, hd]) hc

theorem isDigit_of_isServerNumber {i : List Char} (hi : IsServerNumber i) :
    ∀ c ∈ i, c.isDigit = true := by
  obtain ⟨d, ds, rfl, hd, hds⟩ := hi
  have hfirst : ∀ c ∈ "123456789".toList, c.isDigit = true := by
    rw [← List.all_eq_true]
    decide
  intro c hc
  rcases List.mem_cons.mp hc with rfl | hc
  · exact hfirst c hd
  · exact hds c hc

theorem notMem_of_isServerNumber {i : List Char} (hi : IsServerNumber i) : '_' ∉ i :=
  fun h => absurd (isDigit_of_isServerNumber hi '_' h) (by decide)

section ExactName

variable {i : List Char} (hi : IsServerNumber i) (field : ReadField)

include hi

theorem includesField_exactName (other : ReadField) :
    includesField (exactName field i) other ↔ field = other := by
  constructor
  · intro h
    have hprefix : includesField (readServerPrefix field) other :=
      infix_of_infix_append h (notMem_of_isServerNumber hi)
    revert hprefix
    cases field <;> cases other <;> decide
  · rintro rfl
    exact ⟨"DB_READ".toList, "SERVER_".toList ++ i, by cases field <;> rfl⟩

theorem readServerKeyCheck_exactName : readServerKeyCheck (exactName field i) := by
  obtain ⟨d, ds, rfl, hd, -⟩ := hi
  refine ⟨field, by cases field <;> decide, d, hd, [], ds, ?_⟩
  unfold exactName
  simp

/-- The split and `Number` give the number of the replica. -/
theorem serverIndex_exactName : serverIndex (exactName field i) = JsDouble.number (String.ofList i) := by
  have hsplit : splitFirst "_SERVER_".toList (exactName field i) =
      some ("DB_READ_".toList ++ field.text, i) :=
    splitFirst_append (by cases field <;> decide) i
  have hrest : splitFirst "_SERVER_".toList i = none := by
    rw [splitFirst_eq_none]
    intro h
    exact notMem_of_isServerNumber hi (h.subset (by decide))
  have hne : i ≠ [] := by
    obtain ⟨d, ds, rfl, -, -⟩ := hi
    exact List.cons_ne_nil d ds
  unfold serverIndex
  rw [hsplit]
  simp only [hrest, Option.elim_none]
  rw [JsDouble.number_of_digits (isDigit_of_isServerNumber hi) hne,
    JsDouble.mapKey_roundDouble (Nat.cast_nonneg _)]

end ExactName

theorem exactName_inj {field field' : ReadField} {i i' : List Char} (hi : IsServerNumber i)
    (hi' : IsServerNumber i') (h : exactName field i = exactName field' i') :
    field = field' ∧ i = i' := by
  have hfield : field' = field := (includesField_exactName hi' field' field).mp
    (h ▸ (includesField_exactName hi field field).mpr rfl)
  subst hfield
  exact ⟨rfl, List.append_cancel_left h⟩

/-! ## The settings of a replica, variable by variable -/

/-- The setting with one member replaced. -/
def ReadServerSetting.put (setting : ReadServerSetting) (value : String) :
    ReadField → ReadServerSetting
  | .HOST => { setting with host := some value }
  | .NAME => { setting with database := some value }
  | .USERNAME => { setting with username := some value }
  | .PASSWORD => { setting with password := some value }
  | .PORT => { setting with port := JsDouble.number value }

/-- A variable that is meant sets the member it names. -/
theorem set_exactName {i : List Char} (hi : IsServerNumber i) (field : ReadField) (value : String)
    (setting : ReadServerSetting) :
    setReadServerConfigValues (exactName field i) value setting = setting.put value field := by
  unfold setReadServerConfigValues
  simp only [includesField_exactName hi]
  cases field <;> rfl

section Lookup

variable {vars : List (String × String)} {entry : String × String}

theorem lookupVariable_append (vars : List (String × String)) (entry : String × String)
    (name : List Char) : lookupVariable (vars ++ [entry]) name =
      (lookupVariable vars name).or (if entry.1.toList = name then some entry.2 else none) := by
  unfold lookupVariable
  rw [List.find?_append]
  cases vars.find? (·.1.toList = name) with
  | some e => rfl
  | none =>
    by_cases h : entry.1.toList = name
    · simp [h]
    · simp [h]

theorem lookupVariable_append_of_ne {name : List Char} (h : entry.1.toList ≠ name) :
    lookupVariable (vars ++ [entry]) name = lookupVariable vars name := by
  rw [lookupVariable_append, if_neg h, Option.or_none]

theorem lookupVariable_eq_none {name : List Char}
    (h : ∀ entry ∈ vars, entry.1.toList ≠ name) : lookupVariable vars name = none := by
  unfold lookupVariable
  rw [Option.map_eq_none_iff, List.find?_eq_none]
  intro e he
  simpa using h e he

/-- A name has one value. -/
theorem lookupVariable_eq_some (hnodup : (vars.map Prod.fst).Nodup) {name : List Char}
    {value : String} : lookupVariable vars name = some value ↔
      (String.ofList name, value) ∈ vars := by
  have hkeys : (vars.map fun entry => entry.1.toList).Nodup := by
    have hmap := hnodup.map fun _ _ => String.toList_injective
    rwa [List.map_map] at hmap
  have hfind : vars.find? (·.1.toList = name) =
      (⟨vars, hkeys⟩ : Table fun entry => entry.1.toList).find? name := rfl
  unfold lookupVariable
  rw [hfind, Option.map_eq_some_iff]
  simp only [Table.find?_eq_some]
  constructor
  · rintro ⟨⟨k, v⟩, ⟨hmem, rfl⟩, rfl⟩
    rwa [String.ofList_toList]
  · exact fun hmem => ⟨_, ⟨hmem, String.toList_ofList⟩, rfl⟩

/-- A variable of another name changes no setting of the replica. -/
theorem serverSetting_append_of_ne {i : List Char}
    (h : ∀ field, entry.1.toList ≠ exactName field i) :
    serverSetting (vars ++ [entry]) i = serverSetting vars i := by
  unfold serverSetting
  simp only [lookupVariable_append_of_ne (h _)]

/-- A variable that is new sets its member. -/
theorem serverSetting_append {i : List Char} (hi : IsServerNumber i) {field : ReadField}
    (hname : entry.1.toList = exactName field i)
    (hnew : ∀ e ∈ vars, e.1.toList ≠ exactName field i) :
    serverSetting (vars ++ [entry]) i = (serverSetting vars i).put entry.2 field := by
  have hother : ∀ other, other ≠ field → lookupVariable (vars ++ [entry]) (exactName other i) =
      lookupVariable vars (exactName other i) := by
    intro other hne
    refine lookupVariable_append_of_ne fun h => hne ?_
    exact (exactName_inj hi hi (hname.symm.trans h)).1.symm
  have hself : lookupVariable (vars ++ [entry]) (exactName field i) = some entry.2 := by
    rw [lookupVariable_append, lookupVariable_eq_none hnew, if_pos hname]
    rfl
  unfold serverSetting
  cases field <;> simp only [hself, hother, ne_eq, reduceCtorEq, not_false_eq_true,
    ReadServerSetting.put, Option.elim_some]

/-- Without variables of its own, a replica has the defaults. -/
theorem serverSetting_of_not_hasServer {i : List Char} (hi : IsServerNumber i)
    (h : ¬ HasServer vars i) : serverSetting vars i = {} := by
  have hnone : ∀ field, lookupVariable vars (exactName field i) = none :=
    fun field => lookupVariable_eq_none fun e he hname => h ⟨hi, field, e, he, hname⟩
  unfold serverSetting
  simp only [hnone]
  rfl

theorem hasServer_append {i : List Char} : HasServer (vars ++ [entry]) i ↔
    HasServer vars i ∨ IsServerNumber i ∧ ∃ field, entry.1.toList = exactName field i := by
  unfold HasServer
  constructor
  · rintro ⟨hi, field, e, he, hname⟩
    rcases List.mem_append.mp he with he | he
    · exact .inl ⟨hi, field, e, he, hname⟩
    · obtain rfl := List.mem_singleton.mp he
      exact .inr ⟨hi, field, hname⟩
  · rintro (⟨hi, field, e, he, hname⟩ | ⟨hi, field, hname⟩)
    · exact ⟨hi, field, e, List.mem_append_left _ he, hname⟩
    · exact ⟨hi, field, entry, by simp, hname⟩

end Lookup

/-! ## The mappings -/

namespace ServerMappings

variable {mappings : ServerMappings} {index : JsDouble} {setting : ReadServerSetting}

theorem get?_eq_some (h : (mappings.map Prod.fst).Nodup) :
    mappings.get? index = some setting ↔ (index, setting) ∈ mappings :=
  Table.find?_fst_eq_some h

theorem get?_eq_none : mappings.get? index = none ↔ index ∉ mappings.map Prod.fst := by
  unfold get?
  rw [Option.map_eq_none_iff, List.find?_eq_none, List.mem_map]
  constructor
  · rintro h ⟨e, he, hindex⟩
    exact h e he (decide_eq_true hindex)
  · intro h e he hindex
    exact h ⟨e, he, of_decide_eq_true hindex⟩

/-- `set` keeps the order of the keys, and adds a new one at the end. -/
theorem map_fst_set : (mappings.set index setting).map Prod.fst =
    if index ∈ mappings.map Prod.fst then mappings.map Prod.fst
    else mappings.map Prod.fst ++ [index] := by
  unfold set
  split
  · rw [List.map_map]
    refine List.map_congr_left fun e _ => ?_
    by_cases he : e.1 = index
    · simp [he]
    · simp [he]
  · simp

theorem nodup_set (h : (mappings.map Prod.fst).Nodup) :
    ((mappings.set index setting).map Prod.fst).Nodup := by
  rw [map_fst_set]
  split
  · exact h
  · rename_i hindex
    exact List.Nodup.append h (List.nodup_singleton _) (by simpa using hindex)

theorem mem_set {e : JsDouble × ReadServerSetting} :
    e ∈ mappings.set index setting ↔
      e = (index, setting) ∨ e.1 ≠ index ∧ e ∈ mappings := by
  unfold set
  split
  · rename_i hindex
    rw [List.mem_map]
    constructor
    · rintro ⟨e', he', rfl⟩
      by_cases h : e'.1 = index
      · exact .inl (if_pos h)
      · rw [if_neg h]
        exact .inr ⟨h, he'⟩
    · rintro (rfl | ⟨hne, he⟩)
      · obtain ⟨e', he', hindex⟩ := List.mem_map.mp hindex
        exact ⟨e', he', if_pos hindex⟩
      · exact ⟨e, he, if_neg hne⟩
  · rename_i hindex
    have hne : e ∈ mappings → e.1 ≠ index := by
      rintro he rfl
      exact hindex (List.mem_map_of_mem he)
    rw [List.mem_append, List.mem_singleton]
    constructor
    · rintro (he | rfl)
      · exact .inr ⟨hne he, he⟩
      · exact .inl rfl
    · rintro (rfl | ⟨-, he⟩)
      · exact .inr rfl
      · exact .inl he

/-- The value that is set has one place among the values. -/
theorem exists_map_snd_set (mappings : ServerMappings) (index : JsDouble)
    (h : (mappings.map Prod.fst).Nodup) : ∃ before after, ∀ setting,
      (mappings.set index setting).map Prod.snd = before ++ setting :: after := by
  by_cases hindex : index ∈ mappings.map Prod.fst
  · obtain ⟨⟨k, c⟩, hmem, rfl⟩ := List.mem_map.mp hindex
    obtain ⟨before, after, rfl⟩ := List.append_of_mem hmem
    rw [List.map_append, List.map_cons, List.nodup_middle, List.nodup_cons, List.mem_append,
      not_or] at h
    have hkeep : ∀ (l : ServerMappings) (setting : ReadServerSetting), k ∉ l.map Prod.fst →
        l.map (fun entry => if entry.1 = k then (k, setting) else entry) = l := by
      intro l setting hk
      conv_rhs => rw [← List.map_id l]
      refine List.map_congr_left fun e he => if_neg ?_
      rintro rfl
      exact hk (List.mem_map_of_mem he)
    refine ⟨before.map Prod.snd, after.map Prod.snd, fun setting => ?_⟩
    unfold set
    rw [if_pos hindex, List.map_append, List.map_cons, hkeep before setting h.1.1,
      hkeep after setting h.1.2, if_pos rfl, List.map_append, List.map_cons]
  · refine ⟨mappings.map Prod.snd, [], fun setting => ?_⟩
    unfold set
    rw [if_neg hindex, List.map_append]
    rfl

end ServerMappings

/-! ## The loop, where only the names that are meant match -/

section AddVariable

variable (mappings : ServerMappings) {entry : String × String}

theorem addVariable_of_check (hcheck : readServerKeyCheck entry.1.toList) :
    addVariable mappings entry = mappings.set (serverIndex entry.1.toList)
      (setReadServerConfigValues entry.1.toList entry.2
        ((mappings.get? (serverIndex entry.1.toList)).getD {})) :=
  if_pos hcheck

theorem addVariable_of_not_check (hcheck : ¬ readServerKeyCheck entry.1.toList) :
    addVariable mappings entry = mappings :=
  if_neg hcheck

theorem readServerMappings_append (vars : List (String × String)) (entry : String × String) :
    readServerMappings (vars ++ [entry]) = addVariable (readServerMappings vars) entry :=
  List.foldl_concat _ _ _ _

end AddVariable

/-- `Number` of the number of a replica. -/
def indexOf (i : List Char) : JsDouble := JsDouble.number (String.ofList i)

/-- Only names that are meant match, and `Number` tells their replicas apart. -/
structure NamesAgree (vars : List (String × String)) : Prop where
  exact : ∀ entry ∈ vars, readServerKeyCheck entry.1.toList → IsExact entry.1.toList
  inj : ∀ i j, HasServer vars i → HasServer vars j → indexOf i = indexOf j → i = j

/-- The mappings are the settings of the replicas. -/
structure Tracks (vars : List (String × String)) (mappings : ServerMappings) : Prop where
  nodup : (mappings.map Prod.fst).Nodup
  mem : ∀ e, e ∈ mappings ↔ ∃ i, HasServer vars i ∧ e = (indexOf i, serverSetting vars i)

section Loop

variable {vars : List (String × String)} {entry : String × String} {mappings : ServerMappings}

theorem NamesAgree.of_append (h : NamesAgree (vars ++ [entry])) : NamesAgree vars where
  exact e he := h.exact e (List.mem_append_left _ he)
  inj i j hi hj := h.inj i j (hasServer_append.mpr (.inl hi)) (hasServer_append.mpr (.inl hj))

/-- A variable of another name leaves the mappings alone. -/
theorem tracks_of_not_check (htracks : Tracks vars mappings)
    (hcheck : ¬ readServerKeyCheck entry.1.toList) :
    Tracks (vars ++ [entry]) (addVariable mappings entry) := by
  have hname : ∀ i, IsServerNumber i → ∀ field, entry.1.toList ≠ exactName field i :=
    fun i hi field h => hcheck (h ▸ readServerKeyCheck_exactName hi field)
  have hserver : ∀ i, HasServer (vars ++ [entry]) i ↔ HasServer vars i := by
    intro i
    rw [hasServer_append]
    exact or_iff_left fun ⟨hi, field, h⟩ => hname i hi field h
  rw [addVariable_of_not_check _ hcheck]
  refine ⟨htracks.nodup, fun e => (htracks.mem e).trans ?_⟩
  constructor
  · rintro ⟨i, hi, rfl⟩
    exact ⟨i, (hserver i).mpr hi, by rw [serverSetting_append_of_ne (hname i hi.1)]⟩
  · rintro ⟨i, hi, rfl⟩
    exact ⟨i, (hserver i).mp hi, by rw [serverSetting_append_of_ne (hname i hi.1)]⟩

/-- What is looked up for a replica are its settings so far. -/
theorem getD_of_tracks {i : List Char} (htracks : Tracks vars mappings) (hi : IsServerNumber i)
    (hinj : ∀ j, HasServer vars j → indexOf j = indexOf i → j = i) :
    (mappings.get? (indexOf i)).getD {} = serverSetting vars i := by
  by_cases hserver : HasServer vars i
  · rw [(ServerMappings.get?_eq_some htracks.nodup).mpr ((htracks.mem _).mpr ⟨i, hserver, rfl⟩)]
    rfl
  · have hnone : mappings.get? (indexOf i) = none := by
      rw [ServerMappings.get?_eq_none]
      intro hmem
      obtain ⟨e, he, hindex⟩ := List.mem_map.mp hmem
      obtain ⟨j, hj, rfl⟩ := (htracks.mem e).mp he
      exact hserver (hinj j hj hindex ▸ hj)
    rw [hnone, serverSetting_of_not_hasServer hi hserver]
    rfl

/-- One variable keeps the mappings the settings of the replicas. -/
theorem tracks_addVariable (htracks : Tracks vars mappings) (hagree : NamesAgree (vars ++ [entry]))
    (hnew : ∀ e ∈ vars, e.1 ≠ entry.1) : Tracks (vars ++ [entry]) (addVariable mappings entry) := by
  by_cases hcheck : readServerKeyCheck entry.1.toList
  · obtain ⟨field, i, hi, hname⟩ := hagree.exact entry (by simp) hcheck
    have hself : HasServer (vars ++ [entry]) i := hasServer_append.mpr (.inr ⟨hi, field, hname⟩)
    have hinj : ∀ j, HasServer vars j → indexOf j = indexOf i → j = i :=
      fun j hj h => hagree.inj j i (hasServer_append.mpr (.inl hj)) hself h
    have hnames : ∀ e ∈ vars, e.1.toList ≠ exactName field i :=
      fun e he h => hnew e he (String.toList_inj.mp (h.trans hname.symm))
    have hadd : addVariable mappings entry =
        mappings.set (indexOf i) (serverSetting (vars ++ [entry]) i) := by
      have hindex : serverIndex entry.1.toList = indexOf i := by
        rw [hname, serverIndex_exactName hi]
        rfl
      rw [addVariable_of_check _ hcheck, hindex, getD_of_tracks htracks hi hinj,
        serverSetting_append hi hname hnames, hname, set_exactName hi]
    have hother : ∀ j, IsServerNumber j → j ≠ i →
        serverSetting (vars ++ [entry]) j = serverSetting vars j := by
      intro j hj hne
      refine serverSetting_append_of_ne fun other h => hne ?_
      exact (exactName_inj hi hj (hname.symm.trans h)).2.symm
    rw [hadd]
    refine ⟨ServerMappings.nodup_set htracks.nodup, fun e => ?_⟩
    rw [ServerMappings.mem_set]
    constructor
    · rintro (rfl | ⟨hne, he⟩)
      · exact ⟨i, hself, rfl⟩
      · obtain ⟨j, hj, rfl⟩ := (htracks.mem e).mp he
        refine ⟨j, hasServer_append.mpr (.inl hj), ?_⟩
        rw [hother j hj.1 fun h => hne (by rw [h])]
    · rintro ⟨j, hj, rfl⟩
      by_cases hji : j = i
      · exact .inl (by rw [hji])
      · refine .inr ⟨fun h => hji (hagree.inj j i hj hself h), (htracks.mem _).mpr ⟨j, ?_, ?_⟩⟩
        · rcases hasServer_append.mp hj with hj | ⟨hnum, other, h⟩
          · exact hj
          · exact absurd (exactName_inj hi hnum (hname.symm.trans h)).2.symm hji
        · rw [hother j hj.1 hji]
  · exact tracks_of_not_check htracks hcheck

/-- So does the loop. -/
theorem tracks_readServerMappings (hnodup : (vars.map Prod.fst).Nodup) (hagree : NamesAgree vars) :
    Tracks vars (readServerMappings vars) := by
  induction vars using List.reverseRecOn with
  | nil => exact ⟨List.nodup_nil, by simp [readServerMappings, HasServer]⟩
  | append_singleton vars entry ih =>
    rw [List.map_append, List.map_singleton] at hnodup
    rw [readServerMappings_append]
    refine tracks_addVariable (ih (List.nodup_append.mp hnodup).1 hagree.of_append) hagree ?_
    intro e he h
    exact (List.nodup_append.mp hnodup).2.2 e.1 (List.mem_map_of_mem he) entry.1 (by simp) h

/-- What the mappings track is a read list. -/
theorem Tracks.isReadList (h : Tracks vars mappings) (hagree : NamesAgree vars) :
    IsReadList vars (mappings.map Prod.snd) := by
  let f : { i // HasServer vars i } → JsDouble × ReadServerSetting :=
    fun i => (indexOf i, serverSetting vars i)
  obtain ⟨is, his⟩ : mappings ∈ Set.range (List.map f) := by
    rw [Set.range_list_map]
    intro e he
    obtain ⟨i, hi, rfl⟩ := (h.mem e).mp he
    exact ⟨⟨i, hi⟩, rfl⟩
  refine ⟨is.map Subtype.val, ?_, fun i => ?_, ?_⟩
  · have hnodup := h.nodup
    rw [← his, List.map_map] at hnodup
    refine List.Nodup.of_map indexOf ?_
    rwa [List.map_map]
  · constructor
    · intro hi
      obtain ⟨⟨i, hserver⟩, -, rfl⟩ := List.mem_map.mp hi
      exact hserver
    · intro hi
      have hmem : (indexOf i, serverSetting vars i) ∈ is.map f := his ▸ (h.mem _).mpr ⟨i, hi, rfl⟩
      obtain ⟨⟨j, hj⟩, hjmem, heq⟩ := List.mem_map.mp hmem
      obtain rfl := hagree.inj j i hj hi (Prod.mk.inj heq).1
      exact List.mem_map.mpr ⟨_, hjmem, rfl⟩
  · rw [← his, List.map_map, List.map_map]
    exact List.Perm.refl _

end Loop

/-! ## The replicas of an environment -/

namespace ReplicaEnv

variable {env env' : ReplicaEnv}

/-- Environments with the same replicas have the same settings for them. -/
theorem SameServers.lookupVariable_eq (h : env.SameServers env') {name : List Char}
    (hname : IsExact name) : lookupVariable env'.vars name = lookupVariable env.vars name := by
  refine Option.ext fun value => ?_
  rw [lookupVariable_eq_some env'.nodup, lookupVariable_eq_some env.nodup]
  exact h.1 _ (by rwa [String.toList_ofList])

theorem SameServers.serverSetting_eq (h : env.SameServers env') {i : List Char}
    (hi : IsServerNumber i) : serverSetting env'.vars i = serverSetting env.vars i := by
  unfold serverSetting
  simp only [h.lookupVariable_eq ⟨_, i, hi, rfl⟩]

theorem SameServers.hasServer_iff (h : env.SameServers env') {i : List Char} :
    HasServer env'.vars i ↔ HasServer env.vars i := by
  unfold HasServer
  refine and_congr_right fun hi => exists_congr fun field => exists_congr fun e => ?_
  exact and_congr_left fun hname => h.1 e ⟨field, i, hi, hname⟩

theorem SameServers.isReadList (h : env.SameServers env') {read : List ReadServerSetting}
    (hread : IsReadList env'.vars read) : IsReadList env.vars read := by
  obtain ⟨is, hnodup, hmem, hperm⟩ := hread
  refine ⟨is, hnodup, fun i => (hmem i).trans h.hasServer_iff, ?_⟩
  have hsettings : is.map (serverSetting env'.vars) = is.map (serverSetting env.vars) :=
    List.map_congr_left fun i hi => h.serverSetting_eq ((hmem i).mp hi).1
  rwa [← hsettings]

theorem SameServers.namesAgree (h : env.SameServers env') (hagree : NamesAgree env.vars) :
    NamesAgree env'.vars where
  exact e he hcheck := by
    by_contra hexact
    obtain ⟨value, hmem⟩ := h.2 e he hexact
    exact hexact (hagree.exact (e.1, value) hmem hcheck)
  inj i j hi hj := hagree.inj i j (h.hasServer_iff.mp hi) (h.hasServer_iff.mp hj)

theorem SameServers.refl (env : ReplicaEnv) : env.SameServers env :=
  ⟨fun _ _ => Iff.rfl, fun e he _ => ⟨e.2, he⟩⟩

theorem settings_eq (env : ReplicaEnv) (h : readServerMappings env.vars ≠ []) :
    readWriteClusterSettings env.toProcessEnv = .ok (some {
      write := writeSetting env.vars, read := (readServerMappings env.vars).map Prod.snd }) := by
  unfold readWriteClusterSettings
  rw [if_neg (not_not_intro env.enabled)]
  exact if_neg h

/-- The read list of an environment whose settings can be read. -/
theorem read_of_settings {env : ReplicaEnv} {options : ReplicationOptions}
    (h : readWriteClusterSettings env.toProcessEnv = .ok (some options)) :
    options.read = (readServerMappings env.vars).map Prod.snd := by
  by_cases hempty : readServerMappings env.vars = []
  · unfold readWriteClusterSettings at h
    rw [if_neg (not_not_intro env.enabled)] at h
    have h := (if_pos hempty).symm.trans h
    cases h
  · rw [settings_eq env hempty] at h
    rw [← Option.some.inj (Except.ok.inj h)]

end ReplicaEnv

/-- Where only the names that are meant match and their numbers are told apart, the read list comes
    from exactly those variables. -/
theorem readsNamedVariables_of_namesAgree {env : ReplicaEnv} (hagree : NamesAgree env.vars) :
    ReadsNamedVariables env := by
  intro env' h
  have htracks := tracks_readServerMappings env'.nodup (h.namesAgree hagree)
  have hne : readServerMappings env'.vars ≠ [] := by
    obtain ⟨i, hi⟩ := env'.server
    exact List.ne_nil_of_mem ((htracks.mem _).mpr ⟨i, hi, rfl⟩)
  exact ⟨_, _, env'.settings_eq hne, h.isReadList (htracks.isReadList (h.namesAgree hagree))⟩

/-! ## The other variables that match -/

/-- The keys of the mappings stay distinct. -/
theorem nodup_readServerMappings (vars : List (String × String)) :
    ((readServerMappings vars).map Prod.fst).Nodup := by
  induction vars using List.reverseRecOn with
  | nil => exact List.nodup_nil
  | append_singleton vars entry ih =>
    rw [readServerMappings_append]
    by_cases hcheck : readServerKeyCheck entry.1.toList
    · rw [addVariable_of_check _ hcheck]
      exact ServerMappings.nodup_set ih
    · rwa [addVariable_of_not_check _ hcheck]

/-- A read list is determined up to its order. -/
theorem IsReadList.perm {vars : List (String × String)} {read read' : List ReadServerSetting}
    (h : IsReadList vars read) (h' : IsReadList vars read') : read.Perm read' := by
  obtain ⟨is, hnodup, hmem, hperm⟩ := h
  obtain ⟨is', hnodup', hmem', hperm'⟩ := h'
  have his : is.Perm is' :=
    (List.perm_ext_iff_of_nodup hnodup hnodup').mpr fun i => (hmem i).trans (hmem' i).symm
  exact hperm.trans ((his.map _).trans hperm'.symm)

/-- A name that matches sets a member. -/
theorem exists_includesField {key : List Char} (h : readServerKeyCheck key) :
    ∃ field, includesField key field := by
  obtain ⟨field, -, d, -, hkey⟩ := h
  refine ⟨field, List.IsInfix.trans ?_ hkey⟩
  exact ⟨"DB_READ".toList, "SERVER_".toList ++ [d], by cases field <;> rfl⟩

/-- Two values that read as different numbers give different settings. -/
theorem setReadServerConfigValues_ne {key : List Char} {value value' : String}
    (setting : ReadServerSetting) (hkey : readServerKeyCheck key) (hne : value ≠ value')
    (hnumber : JsDouble.number value ≠ JsDouble.number value') :
    setReadServerConfigValues key value setting ≠ setReadServerConfigValues key value' setting := by
  intro h
  obtain ⟨field, hfield⟩ := exists_includesField hkey
  unfold setReadServerConfigValues at h
  rw [ReadServerSetting.mk.injEq] at h
  obtain ⟨hhost, hdatabase, husername, hpassword, hport⟩ := h
  cases field with
  | HOST =>
    rw [if_pos hfield, if_pos hfield] at hhost
    exact hne (Option.some.inj hhost)
  | NAME =>
    rw [if_pos hfield, if_pos hfield] at hdatabase
    exact hne (Option.some.inj hdatabase)
  | USERNAME =>
    rw [if_pos hfield, if_pos hfield] at husername
    exact hne (Option.some.inj husername)
  | PASSWORD =>
    rw [if_pos hfield, if_pos hfield] at hpassword
    exact hne (Option.some.inj hpassword)
  | PORT =>
    rw [if_pos hfield, if_pos hfield] at hport
    exact hnumber hport

namespace ReplicaEnv

/-- The environment with another value for a variable of no replica. -/
def withVariable (env : ReplicaEnv) (entry : String × String) (value : String)
    (hcheck : readServerKeyCheck entry.1.toList) (hexact : ¬ IsExact entry.1.toList) :
    ReplicaEnv where
  vars := env.vars.filter (·.1 ≠ entry.1) ++ [(entry.1, value)]
  nodup := by
    rw [List.map_append, List.map_singleton]
    refine List.Nodup.append (env.nodup.sublist (List.filter_sublist.map _))
      (List.nodup_singleton _) ?_
    rw [List.disjoint_singleton, List.mem_map]
    rintro ⟨e, he, heq⟩
    exact of_decide_eq_true (List.mem_filter.mp he).2 heq
  enabled := by
    have hne : "DB_USE_READ_WRITE_CLUSTER".toList ≠ entry.1.toList :=
      fun h => absurd (h ▸ hcheck) (by decide)
    have hentry : (entry.1, value).1.toList ≠ "DB_USE_READ_WRITE_CLUSTER".toList := hne.symm
    rw [lookupVariable_append_of_ne hentry]
    have hmem := (lookupVariable_eq_some env.nodup).mp env.enabled
    rw [lookupVariable_eq_some (env.nodup.sublist (List.filter_sublist.map _))]
    refine List.mem_filter.mpr ⟨hmem, decide_eq_true fun h => hne ?_⟩
    exact (String.toList_ofList).symm.trans (congrArg String.toList h)
  server := by
    obtain ⟨i, hi, field, e, he, hname⟩ := env.server
    refine ⟨i, hi, field, e, List.mem_append_left _ ?_, hname⟩
    refine List.mem_filter.mpr ⟨he, decide_eq_true fun h => hexact ?_⟩
    exact ⟨field, i, hi, h ▸ hname⟩

section WithVariable

variable {env : ReplicaEnv} {entry : String × String} (hmem : entry ∈ env.vars)
  (hcheck : readServerKeyCheck entry.1.toList) (hexact : ¬ IsExact entry.1.toList)

include hmem

theorem sameServers_withVariable (value : String) :
    env.SameServers (env.withVariable entry value hcheck hexact) := by
  constructor
  · intro e he
    have hne : e.1 ≠ entry.1 := fun h => hexact (h ▸ he)
    unfold withVariable
    rw [List.mem_append, List.mem_filter, List.mem_singleton]
    constructor
    · rintro (h | rfl)
      · exact h.1
      · exact absurd rfl hne
    · intro h
      exact .inl ⟨h, decide_eq_true hne⟩
  · intro e he _
    rcases List.mem_append.mp he with he | he
    · exact ⟨e.2, (List.mem_filter.mp he).1⟩
    · obtain rfl := List.mem_singleton.mp he
      exact ⟨entry.2, hmem⟩

include hcheck hexact in
/-- A variable of no replica that matches changes the read list with its value. -/
theorem not_readsNamedVariables : ¬ ReadsNamedVariables env := by
  intro h
  let kept := readServerMappings (env.vars.filter (·.1 ≠ entry.1))
  obtain ⟨before, after, hset⟩ := ServerMappings.exists_map_snd_set kept
    (serverIndex entry.1.toList) (nodup_readServerMappings _)
  let setting (value : String) := setReadServerConfigValues entry.1.toList value
    ((kept.get? (serverIndex entry.1.toList)).getD {})
  -- the list is the same around the entry of the variable, whatever its value
  have hread : ∀ value, IsReadList env.vars (before ++ setting value :: after) := by
    intro value
    obtain ⟨write, read, hsettings, hread⟩ :=
      h _ (sameServers_withVariable hmem hcheck hexact value)
    have hmappings : readServerMappings (env.withVariable entry value hcheck hexact).vars =
        kept.set (serverIndex entry.1.toList) (setting value) := by
      unfold withVariable
      have hadd : addVariable kept (entry.1, value) = _ := addVariable_of_check kept hcheck
      exact (readServerMappings_append _ _).trans hadd
    have hlist : read = _ := read_of_settings hsettings
    rw [hlist, hmappings, hset] at hread
    exact hread
  have hperm := (hread "1").perm (hread "2")
  rw [List.perm_append_left_iff, ← List.singleton_append, ← List.singleton_append (l := after),
    List.perm_append_right_iff, List.singleton_perm_singleton] at hperm
  refine setReadServerConfigValues_ne _ hcheck (by decide) ?_ hperm
  have hnumber : ∀ n : ℕ, n ≤ 2 ^ 53 → JsDouble.number (toString n) = .finite n := fun n hn =>
    (JsDouble.number_toString n).trans (JsDouble.roundDouble_natCast hn)
  have h1 := hnumber 1 (by decide)
  have h2 := hnumber 2 (by decide)
  exact fun heq => absurd (h1.symm.trans (heq.trans h2)) (by simp)

end WithVariable

end ReplicaEnv

/-- Where only the names that are meant match, each key is the number of a replica. -/
theorem exists_of_mem_keys {vars : List (String × String)}
    (hexact : ∀ entry ∈ vars, readServerKeyCheck entry.1.toList → IsExact entry.1.toList) :
    ∀ index ∈ (readServerMappings vars).map Prod.fst, ∃ i, HasServer vars i ∧ index = indexOf i := by
  induction vars using List.reverseRecOn with
  | nil => exact fun index h => absurd h List.not_mem_nil
  | append_singleton vars entry ih =>
    intro index hindex
    have hold : index ∈ (readServerMappings vars).map Prod.fst →
        ∃ i, HasServer (vars ++ [entry]) i ∧ index = indexOf i := by
      intro h
      obtain ⟨i, hi, rfl⟩ := ih (fun e he => hexact e (List.mem_append_left _ he)) index h
      exact ⟨i, hasServer_append.mpr (.inl hi), rfl⟩
    rw [readServerMappings_append] at hindex
    by_cases hcheck : readServerKeyCheck entry.1.toList
    · rw [addVariable_of_check _ hcheck, ServerMappings.map_fst_set] at hindex
      split at hindex
      · exact hold hindex
      · rcases List.mem_append.mp hindex with h | h
        · exact hold h
        · obtain ⟨field, i, hi, hname⟩ := hexact entry (by simp) hcheck
          refine ⟨i, hasServer_append.mpr (.inr ⟨hi, field, hname⟩), ?_⟩
          rw [List.mem_singleton.mp h, hname, serverIndex_exactName hi]
          rfl
    · rw [addVariable_of_not_check _ hcheck] at hindex
      exact hold hindex

/-- As many entries as replicas: no two replicas have one key. -/
theorem inj_of_isReadList {vars : List (String × String)}
    (hexact : ∀ entry ∈ vars, readServerKeyCheck entry.1.toList → IsExact entry.1.toList)
    (hread : IsReadList vars ((readServerMappings vars).map Prod.snd)) :
    ∀ i j, HasServer vars i → HasServer vars j → indexOf i = indexOf j → i = j := by
  obtain ⟨is, hnodup, hmem, hperm⟩ := hread
  let keys := (readServerMappings vars).map Prod.fst
  have hsubset : keys.toFinset ⊆ is.toFinset.image indexOf := by
    intro index hindex
    obtain ⟨i, hi, rfl⟩ := exists_of_mem_keys hexact index (List.mem_toFinset.mp hindex)
    exact Finset.mem_image_of_mem _ (List.mem_toFinset.mpr ((hmem i).mpr hi))
  have hlength : keys.length = is.length := by
    rw [List.length_map, ← List.length_map (f := Prod.snd), hperm.length_eq, List.length_map]
  have hcard : (is.toFinset.image indexOf).card = is.toFinset.card := by
    refine le_antisymm Finset.card_image_le ?_
    calc is.toFinset.card
        = is.length := List.toFinset_card_of_nodup hnodup
      _ = keys.toFinset.card := by
        rw [← hlength, List.toFinset_card_of_nodup (nodup_readServerMappings vars)]
      _ ≤ (is.toFinset.image indexOf).card := Finset.card_le_card hsubset
  have hinj := Finset.injOn_of_card_image_eq hcard
  intro i j hi hj h
  exact hinj (List.mem_toFinset.mpr ((hmem i).mpr hi)) (List.mem_toFinset.mpr ((hmem j).mpr hj)) h

/-- The read list comes from exactly the variables that are meant if and only if no other name
    matches and `Number` tells their replicas apart. -/
theorem readsNamedVariables_iff (env : ReplicaEnv) :
    ReadsNamedVariables env ↔ NamesAgree env.vars := by
  constructor
  · intro h
    have hexact : ∀ entry ∈ env.vars, readServerKeyCheck entry.1.toList →
        IsExact entry.1.toList := by
      intro entry hmem hcheck
      by_contra hname
      exact ReplicaEnv.not_readsNamedVariables hmem hcheck hname h
    obtain ⟨write, read, hsettings, hread⟩ := h env (ReplicaEnv.SameServers.refl env)
    have hlist : read = _ := ReplicaEnv.read_of_settings hsettings
    exact ⟨hexact, inj_of_isReadList hexact (hlist ▸ hread)⟩
  · exact readsNamedVariables_of_namesAgree

/-- A replica, and an old value kept beside it. -/
def renamedHostEnv : ReplicaEnv where
  vars := [("DB_USE_READ_WRITE_CLUSTER", "true"), ("DB_READ_HOST_SERVER_1", "replica"),
    ("OLD_DB_READ_HOST_SERVER_1", "gone")]
  nodup := by decide
  enabled := by decide
  server := ⟨['1'], ⟨'1', [], rfl, by decide, List.forall_mem_nil _⟩, .HOST,
    ("DB_READ_HOST_SERVER_1", "replica"), by decide, by decide⟩

/-- The old value becomes the host of the replica. -/
theorem not_readsNamedVariables_renamedHostEnv : ¬ ReadsNamedVariables renamedHostEnv := by
  have hmem : ("OLD_DB_READ_HOST_SERVER_1", "gone") ∈ renamedHostEnv.vars := by decide
  refine ReplicaEnv.not_readsNamedVariables hmem (by decide) ?_
  rintro ⟨field, i, -, h⟩
  exact absurd (List.cons.inj h).1 (by decide)

end NestTemplate
