import AgentGraph.Foundation.Entries
import AgentGraph.Runtime.EventBus

/-! # The redactor of the recovery service

`RecoveryService` redacts the metadata of the actions and the details of the decisions with
functions and markers of its own, beside those of the event bus.
-/
set_option autoImplicit false
namespace AgentGraph
open Events

namespace Recovery

/-- `_SECRET_MARKERS`. -/
def secretMarkers : List String := ["api_key","token","password","authorization","secret","credential"]

section Redactor
-- `str.lower`
variable (lower : String → String)

/-- `_is_secret`. -/
def isSecret (key : String) : Bool :=
  secretMarkers.any fun marker => decide (marker.toList <:+: (lower key).toList)

mutual
/-- `_sanitize_value`, which leaves every value that is no dict and no list as it is. A dict is
rebuilt under the `str` of its keys, here once its entries are sanitized. -/
def sanitizeValue : PyValue → PyValue
  | .dict fields => .dict (dictOf (sanitizeEntries fields))
  | .list items => .list (sanitizeValues items)
  | value => value

def sanitizeValues : List PyValue → List PyValue
  | [] => []
  | item :: rest => sanitizeValue item :: sanitizeValues rest

/-- The entries of the comprehension in `_sanitize`. -/
def sanitizeEntries : Payload → Payload
  | [] => []
  | (key,value) :: rest =>
    (key,if isSecret lower key then .str "[redacted]" else sanitizeValue value) :: sanitizeEntries rest
end

/-- `_sanitize`. -/
def sanitize (metadata : Payload) : Payload := dictOf (sanitizeEntries lower metadata)

end Redactor

end Recovery

/-! ## Redaction of JSON -/

namespace Json
variable (secret : String → Bool)

mutual
/-- Every value under a secret key is replaced, and nothing else. -/
def redact : Json → Json
  | .arr items => .arr (redactItems items)
  | .obj fields => .obj (redactFields fields)
  | value => value

def redactItems : List Json → List Json
  | [] => []
  | item :: rest => redact item :: redactItems rest

def redactFields : List (String × Json) → List (String × Json)
  | [] => []
  | (key,value) :: rest => (key,if secret key then .str "[redacted]" else redact value) :: redactFields rest
end

end Json

namespace Events

mutual
/-- A JSON value among the values of a payload. -/
def PyValue.ofJson : Json → PyValue
  | .null => .none
  | .bool b => .bool b
  | .int n => .int n
  | .float x => .float x
  | .str s => .str s
  | .arr items => .list (ofItems items)
  | .obj fields => .dict (ofFields fields)

def PyValue.ofItems : List Json → List PyValue
  | [] => []
  | item :: rest => PyValue.ofJson item :: PyValue.ofItems rest

def PyValue.ofFields : List (String × Json) → Payload
  | [] => []
  | (key,value) :: rest => (key,PyValue.ofJson value) :: PyValue.ofFields rest
end

/-- A place in a value, from the outside in. -/
inductive Place
  | key (text : String)
  | index (i : ℕ)
deriving DecidableEq

/-- The value at a place. -/
def PyValue.at? : PyValue → List Place → Option PyValue
  | value, [] => some value
  | .dict fields, .key text :: path => (fields.lookup text).bind fun value => value.at? path
  | .list items, .index i :: path => (items[i]?).bind fun item => item.at? path
  | _, _ :: _ => Option.none

/-- The same keys, the same number of items, or the same value. -/
def PyValue.keptAs : PyValue → PyValue → Prop
  | .dict fields, .dict kept => kept.map Prod.fst = fields.map Prod.fst
  | .list items, .list kept => kept.length = items.length
  | value, kept => kept = value

end Events

namespace Json
variable {secret : String → Bool}

theorem redactItems_eq (items : List Json) : redactItems secret items = items.map (redact secret) := by
  induction items with
  | nil => rfl
  | cons item rest ih => rw [redactItems, ih, List.map_cons]

theorem redactFields_eq (fields : List (String × Json)) :
    redactFields secret fields =
      fields.map fun field => (field.1,if secret field.1 then .str "[redacted]" else redact secret field.2) := by
  induction fields with
  | nil => rfl
  | cons field rest ih => rw [redactFields, ih, List.map_cons]

theorem redact_redact (x : Json) : redact secret (redact secret x) = redact secret x := by
  induction x using treeInduction with
  | null => rfl
  | bool b => rfl
  | int n => rfl
  | float x => rfl
  | str s => rfl
  | arr items ih =>
    simp only [redact, redactItems_eq, List.map_map, arr.injEq]
    exact List.map_congr_left ih
  | obj fields ih =>
    simp only [redact, redactFields_eq, List.map_map, obj.injEq]
    refine List.map_congr_left fun field hfield => Prod.ext rfl ?_
    -- a replaced value stays under its key
    cases h : secret field.1 with
    | true => simp [h]
    | false => simpa [h] using ih field hfield

theorem distinct_redact {x : Json} (h : x.everywhere distinctKeys = true) :
    (redact secret x).everywhere distinctKeys = true := by
  induction x using treeInduction with
  | null => exact h
  | bool b => exact h
  | int n => exact h
  | float x => exact h
  | str s => exact h
  | arr items ih =>
    rw [everywhere_arr] at h
    rw [redact, redactItems_eq, everywhere_arr]
    refine ⟨h.1,fun item hitem => ?_⟩
    obtain ⟨old,hold,rfl⟩ := List.mem_map.mp hitem
    exact ih old hold (h.2 old hold)
  | obj fields ih =>
    rw [everywhere_obj, distinctKeys_obj] at h
    rw [redact, redactFields_eq, everywhere_obj, distinctKeys_obj]
    refine ⟨?_,fun field hfield => ?_⟩
    · rw [Entries.keys_map fun key value => if secret key then .str "[redacted]" else redact secret value]
      exact h.1
    · obtain ⟨old,hold,rfl⟩ := List.mem_map.mp hfield
      dsimp only
      split
      · rfl
      · exact ih old hold (h.2 old hold)

end Json

namespace Events

theorem PyValue.ofItems_eq (items : List Json) : ofItems items = items.map ofJson := by
  induction items with
  | nil => rfl
  | cons item rest ih => rw [ofItems, ih, List.map_cons]

theorem PyValue.ofFields_eq (fields : List (String × Json)) :
    ofFields fields = fields.map fun field => (field.1,ofJson field.2) := by
  induction fields with
  | nil => rfl
  | cons field rest ih => rw [ofFields, ih, List.map_cons]

theorem dictOf_eq (entries : Payload) : dictOf entries = Entries.ofList entries := rfl

theorem dictOf_redacted {f : PyValue → PyValue} {secret : String → Bool} {fields : JsonObject}
    (hkeys : (fields.map Prod.fst).Nodup)
    (hf : ∀ field ∈ fields, f (.ofJson field.2) = .ofJson (field.2.redact secret)) :
    dictOf ((PyValue.ofFields fields).map fun field =>
      (field.1,if secret field.1 then .str "[redacted]" else f field.2)) =
      PyValue.ofFields (Json.redactFields secret fields) := by
  have hmap : ((PyValue.ofFields fields).map fun field =>
      (field.1,if secret field.1 then .str "[redacted]" else f field.2)) =
      PyValue.ofFields (Json.redactFields secret fields) := by
    rw [PyValue.ofFields_eq, PyValue.ofFields_eq, Json.redactFields_eq, List.map_map, List.map_map]
    refine List.map_congr_left fun field hfield => Prod.ext rfl ?_
    dsimp only [Function.comp_apply]
    split
    · rfl
    · exact hf field hfield
  rw [hmap, PyValue.ofFields_eq, Json.redactFields_eq]
  refine Entries.ofList_of_nodup ?_
  rw [List.map_map, List.map_map]
  exact hkeys

end Events

namespace Recovery
variable (lower : String → String)

theorem sanitizeValues_eq (items : List PyValue) : sanitizeValues lower items = items.map (sanitizeValue lower) := by
  induction items with
  | nil => rfl
  | cons item rest ih => rw [sanitizeValues, ih, List.map_cons]

theorem sanitizeEntries_eq (fields : Payload) :
    sanitizeEntries lower fields =
      fields.map fun field =>
        (field.1,if isSecret lower field.1 then .str "[redacted]" else sanitizeValue lower field.2) := by
  induction fields with
  | nil => rfl
  | cons field rest ih => rw [sanitizeEntries, ih, List.map_cons]

/-- As the source has it: the dict is rebuilt, then sanitized. -/
theorem sanitizeValue_dict (fields : Payload) :
    sanitizeValue lower (.dict fields) = .dict (sanitize lower (dictOf fields)) := by
  have hmap := Entries.ofList_map (fun key value => if isSecret lower key then .str "[redacted]" else sanitizeValue lower value)
  simp only [sanitizeValue, sanitize, sanitizeEntries_eq, dictOf_eq, hmap,
    Entries.ofList_of_nodup (Entries.nodup_ofList fields)]

theorem sanitizeValue_ofJson {x : Json} (h : x.everywhere Json.distinctKeys = true) :
    sanitizeValue lower (.ofJson x) = .ofJson (x.redact (isSecret lower)) := by
  induction x using Json.treeInduction with
  | null => rfl
  | bool b => rfl
  | int n => rfl
  | float x => rfl
  | str s => rfl
  | arr items ih =>
    rw [Json.everywhere_arr] at h
    simp only [PyValue.ofJson, sanitizeValue, Json.redact, sanitizeValues_eq, PyValue.ofItems_eq,
      Json.redactItems_eq, List.map_map, PyValue.list.injEq]
    exact List.map_congr_left fun item hitem => ih item hitem (h.2 item hitem)
  | obj fields ih =>
    rw [Json.everywhere_obj, Json.distinctKeys_obj] at h
    rw [PyValue.ofJson, sanitizeValue, sanitizeEntries_eq, Json.redact, PyValue.ofJson,
      dictOf_redacted h.1 fun field hfield => ih field hfield (h.2 field hfield)]

theorem sanitize_ofFields (x : JsonDict) :
    sanitize lower (PyValue.ofFields x.fields) = PyValue.ofFields (Json.redactFields (isSecret lower) x.fields) := by
  have hkeys : ((PyValue.ofFields x.fields).map Prod.fst).Nodup := by
    rw [PyValue.ofFields_eq,List.map_map]
    exact (Json.distinctKeys_obj x.fields).mp ((Json.everywhere_obj _ _).mp x.distinct).1
  have h := sanitizeValue_ofJson lower x.distinct
  rw [Json.redact, PyValue.ofJson, PyValue.ofJson, sanitizeValue_dict, dictOf_eq, Entries.ofList_of_nodup hkeys] at h
  exact PyValue.dict.inj h

end Recovery

namespace Events
variable (lower : String → String)

theorem sanitizeList_eq (items : List PyValue) : sanitizeList lower items = items.map (Events.sanitize lower) := by
  induction items with
  | nil => rfl
  | cons item rest ih => rw [sanitizeList, ih, List.map_cons]

theorem sanitizeItems_eq (fields : Payload) :
    sanitizeItems lower fields =
      fields.map fun field =>
        (field.1,if Events.isSecret lower field.1 then .str "[redacted]" else Events.sanitize lower field.2) := by
  induction fields with
  | nil => rfl
  | cons field rest ih => rw [sanitizeItems, ih, List.map_cons]

theorem sanitize_ofJson {x : Json} (h : x.everywhere Json.distinctKeys = true) :
    Events.sanitize lower (.ofJson x) = .ofJson (x.redact (Events.isSecret lower)) := by
  induction x using Json.treeInduction with
  | null => simp only [PyValue.ofJson, Json.redact, Events.sanitize]
  | bool b => simp only [PyValue.ofJson, Json.redact, Events.sanitize]
  | int n => simp only [PyValue.ofJson, Json.redact, Events.sanitize]
  | float x => simp only [PyValue.ofJson, Json.redact, Events.sanitize]
  | str s => simp only [PyValue.ofJson, Json.redact, Events.sanitize]
  | arr items ih =>
    rw [Json.everywhere_arr] at h
    simp only [PyValue.ofJson, Events.sanitize, Json.redact, sanitizeList_eq, PyValue.ofItems_eq,
      Json.redactItems_eq, List.map_map, PyValue.list.injEq]
    exact List.map_congr_left fun item hitem => ih item hitem (h.2 item hitem)
  | obj fields ih =>
    rw [Json.everywhere_obj, Json.distinctKeys_obj] at h
    rw [PyValue.ofJson, Events.sanitize, sanitizeItems_eq, Json.redact, PyValue.ofJson,
      dictOf_redacted h.1 fun field hfield => ih field hfield (h.2 field hfield)]

theorem sanitizePayload_ofFields (x : JsonDict) :
    sanitizePayload lower (PyValue.ofFields x.fields) = PyValue.ofFields (Json.redactFields (Events.isSecret lower) x.fields) := by
  have h := sanitize_ofJson lower x.distinct
  rw [Json.redact, PyValue.ofJson, PyValue.ofJson, Events.sanitize] at h
  exact PyValue.dict.inj h

end Events

/-- What a redactor leaves at the places under no secret key. -/
theorem at?_redact {secret : String → Bool} {path : List Place} (hclear : ∀ text, .key text ∈ path → secret text = false)
    {x : Json} {value : PyValue} (h : (PyValue.ofJson x).at? path = some value) :
    ∃ y, value = .ofJson y ∧ (PyValue.ofJson (x.redact secret)).at? path = some (.ofJson (y.redact secret)) := by
  induction path generalizing x with
  | nil => exact ⟨x,(Option.some.inj h).symm,rfl⟩
  | cons place path ih =>
    have hrest : ∀ text, .key text ∈ path → secret text = false := fun text ht => hclear text (.tail _ ht)
    cases place with
    | key text =>
      cases x with
      | obj fields =>
        simp only [PyValue.ofJson, PyValue.at?, PyValue.ofFields_eq, Entries.lookup_map fun _ => PyValue.ofJson,
          Option.bind_map, Option.bind_eq_some_iff, Function.comp_apply] at h
        obtain ⟨y,hy,h⟩ := h
        obtain ⟨z,rfl,hz⟩ := ih hrest h
        refine ⟨z,rfl,?_⟩
        have hopen : secret text = false := hclear text List.mem_cons_self
        have hlookup := Entries.lookup_map
          (fun key value => if secret key then .str "[redacted]" else Json.redact secret value) fields text
        simp only [Json.redact, Json.redactFields_eq, PyValue.ofJson, PyValue.at?, PyValue.ofFields_eq,
          Entries.lookup_map fun _ => PyValue.ofJson, hlookup, hy, hopen, Bool.false_eq_true, if_false, Option.map_some,
          Option.bind_some, hz]
      | null => cases h
      | bool b => cases h
      | int n => cases h
      | float x => cases h
      | str s => cases h
      | arr items => cases h
    | index i =>
      cases x with
      | arr items =>
        simp only [PyValue.ofJson, PyValue.at?, PyValue.ofItems_eq, List.getElem?_map, Option.bind_map,
          Option.bind_eq_some_iff, Function.comp_apply] at h
        obtain ⟨y,hy,h⟩ := h
        obtain ⟨z,rfl,hz⟩ := ih hrest h
        refine ⟨z,rfl,?_⟩
        simp only [Json.redact, Json.redactItems_eq, PyValue.ofJson, PyValue.at?, PyValue.ofItems_eq,
          List.getElem?_map, hy, Option.map_some, Option.bind_some, hz]
      | null => cases h
      | bool b => cases h
      | int n => cases h
      | float x => cases h
      | str s => cases h
      | obj fields => cases h

theorem keptAs_redact (secret : String → Bool) (x : Json) : (PyValue.ofJson x).keptAs (.ofJson (x.redact secret)) := by
  cases x with
  | arr items =>
    simp only [PyValue.ofJson, Json.redact, PyValue.keptAs, PyValue.ofItems_eq, Json.redactItems_eq, List.length_map]
  | obj fields =>
    simp only [PyValue.ofJson, Json.redact, PyValue.keptAs, PyValue.ofFields_eq, Json.redactFields_eq, List.map_map]
    rfl
  | null => rfl
  | bool b => rfl
  | int n => rfl
  | float x => rfl
  | str s => rfl

/-- The redacted object as a dict of its own. -/
def JsonDict.redact (secret : String → Bool) (x : JsonDict) : JsonDict :=
  ⟨Json.redactFields secret x.fields,Json.distinct_redact x.distinct⟩

theorem JsonDict.redact_redact (secret : String → Bool) (x : JsonDict) :
    (x.redact secret).redact secret = x.redact secret := by
  have h : Json.redact secret (Json.redact secret (.obj x.fields)) = Json.redact secret (.obj x.fields) :=
    Json.redact_redact (.obj x.fields)
  simp only [Json.redact, Json.obj.injEq] at h
  simp only [JsonDict.redact, h]

theorem isSecret_eq (lower : String → String) : Recovery.isSecret lower = Events.isSecret lower := rfl

/-- Both redactors, for any `str.lower`. -/
theorem redactors_agree (lower : String → String) (x : JsonDict) :
    Recovery.sanitize lower (PyValue.ofFields x.fields) = sanitizePayload lower (PyValue.ofFields x.fields) ∧
    Recovery.sanitize lower (Recovery.sanitize lower (PyValue.ofFields x.fields)) =
      Recovery.sanitize lower (PyValue.ofFields x.fields) ∧
    sanitizePayload lower (sanitizePayload lower (PyValue.ofFields x.fields)) =
      sanitizePayload lower (PyValue.ofFields x.fields) ∧
    ∀ (path : List Place) (value : PyValue), (∀ text, .key text ∈ path → Events.isSecret lower text = false) →
      (PyValue.dict (PyValue.ofFields x.fields)).at? path = some value →
      ∃ kept, (PyValue.dict (Recovery.sanitize lower (PyValue.ofFields x.fields))).at? path = some kept ∧
        (PyValue.dict (sanitizePayload lower (PyValue.ofFields x.fields))).at? path = some kept ∧
        value.keptAs kept := by
  have hrecovery := Recovery.sanitize_ofFields lower x
  have hevents := sanitizePayload_ofFields lower x
  have hagain := JsonDict.redact_redact (Events.isSecret lower) x
  have hrecovery' := Recovery.sanitize_ofFields lower (x.redact (Events.isSecret lower))
  have hevents' := sanitizePayload_ofFields lower (x.redact (Events.isSecret lower))
  rw [isSecret_eq] at hrecovery hrecovery'
  rw [hrecovery, hevents]
  refine ⟨rfl,?_,?_,fun path value hclear h => ?_⟩
  · exact hrecovery'.trans (congrArg (fun y : JsonDict => PyValue.ofFields y.fields) hagain)
  · exact hevents'.trans (congrArg (fun y : JsonDict => PyValue.ofFields y.fields) hagain)
  · obtain ⟨y,rfl,hy⟩ := at?_redact hclear (x := .obj x.fields) h
    exact ⟨_,hy,hy,keptAs_redact _ y⟩

/-- A secret under a list, beside values that stay. -/
def sampleDict : JsonDict where
  fields := [("user_token",.str "t"),("steps",.arr [.obj [("password",.int 1),("done",.bool true)],.null])]
  distinct := by decide

theorem redactors_agree_sample :
    ∃ kept, (PyValue.dict (Recovery.sanitize id (PyValue.ofFields sampleDict.fields))).at?
        [.key "steps",.index 0] = some kept ∧
      (PyValue.dict (sanitizePayload id (PyValue.ofFields sampleDict.fields))).at?
        [.key "steps",.index 0] = some kept ∧
      (PyValue.dict [("password",.int 1),("done",.bool true)]).keptAs kept :=
  (redactors_agree id sampleDict).2.2.2 [.key "steps",.index 0] _ (by simp; decide) rfl

end AgentGraph
