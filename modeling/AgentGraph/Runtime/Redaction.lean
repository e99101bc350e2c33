import AgentGraph.Runtime.EventBus
import Mathlib.Algebra.Group.Int.Defs
import Mathlib.Algebra.Group.Nat.Defs

/-! # Redaction of payloads that hold tuples

`_sanitize` walks dicts and lists. A tuple is neither, and is replaced by its `str`, which
prints everything in it. Two payloads are related when they differ only under secret keys.
The text of an integer beyond the interpreter's digit limit is a `ValueError`, which is
`none` here; the texts of the other leaves are parameters.
-/
set_option autoImplicit false
namespace AgentGraph.Events

/-- A dict key, by its `str` and its `repr`. -/
structure Key where
  text : String
  repr : String
deriving DecidableEq

/-- What a payload is built from before it is sanitized. -/
inductive Value
  | none
  | bool (b : Bool)
  | int (n : ℤ)
  | float (x : JsonFloat)
  | str (s : String)
  /-- By its `isoformat` and its `repr`. -/
  | datetime (iso repr : String)
  | list (items : List Value)
  | tuple (items : List Value)
  | dict (fields : List (Key × Value))

abbrev Fields := List (Key × Value)

/-- The texts the standard library gives to strings, floats and times. -/
structure Texts where
  lower : String → String
  reprStr : String → String
  reprFloat : JsonFloat → String
  isoformat : ℤ → String

/-- The default of `sys.get_int_max_str_digits()`. -/
def maxStrDigits : Nat := 4300

/-- `str(n)`; an integer with more digits than the limit raises. -/
def intText (n : ℤ) : Option String := if n.natAbs < 10 ^ maxStrDigits then some (toString n) else none

/-- The `repr` of a tuple from those of its items. -/
def tupleText : List String → String
  | [item] => "(" ++ item ++ ",)"
  | items => "(" ++ ", ".intercalate items ++ ")"

section Sanitizer
variable (T : Texts)

mutual
/-- `repr(value)`. -/
def reprValue : Value → Option String
  | .none => some "None"
  | .bool b => some (if b then "True" else "False")
  | .int n => intText n
  | .float x => some (T.reprFloat x)
  | .str s => some (T.reprStr s)
  | .datetime _ text => some text
  | .list items => (reprItems items).map fun texts => "[" ++ ", ".intercalate texts ++ "]"
  | .tuple items => (reprItems items).map tupleText
  | .dict fields => (reprFields fields).map fun texts => "\x7b" ++ ", ".intercalate texts ++ "\x7d"

def reprItems : List Value → Option (List String)
  | [] => some []
  | item :: rest => (reprValue item).bind fun text => (reprItems rest).map fun texts => text :: texts

def reprFields : Fields → Option (List String)
  | [] => some []
  | (key,value) :: rest => (reprValue value).bind fun text =>
    (reprFields rest).map fun texts => (key.repr ++ ": " ++ text) :: texts
end

mutual
/-- `_sanitize`, whose last line is reached by tuples. -/
def sanitizeValue : Value → Option PyValue
  | .none => some .none
  | .bool b => some (.bool b)
  | .int n => some (.int n)
  | .float x => some (.float x)
  | .str s => some (.str s)
  | .datetime iso _ => some (.str iso)
  | .list items => (sanitizeValues items).map PyValue.list
  | .tuple items => ((reprItems T items).map tupleText).map PyValue.str
  | .dict fields => (sanitizeFields fields).map fun entries => .dict (dictOf entries)

def sanitizeValues : List Value → Option (List PyValue)
  | [] => some []
  | item :: rest => (sanitizeValue item).bind fun value => (sanitizeValues rest).map fun values => value :: values

/-- `_sanitize_item` of each entry. -/
def sanitizeFields : Fields → Option Payload
  | [] => some []
  | (key,value) :: rest =>
    (if isSecret T.lower key.text then some (.str "[redacted]") else sanitizeValue value).bind fun item =>
      (sanitizeFields rest).map fun entries => (key.text,item) :: entries
end

/-- `_sanitize_payload`. -/
def sanitizeDict (payload : Fields) : Option Payload := (sanitizeFields T payload).map dictOf

end Sanitizer

mutual
/-- `json.dumps` returns; the keys of a sanitized dict are strings. -/
def dumps : PyValue → Bool
  | .int n => (intText n).isSome
  | .list items => dumpsItems items
  | .dict fields => dumpsFields fields
  | .datetime _ | .other _ => false
  | .none | .bool _ | .float _ | .str _ => true

def dumpsItems : List PyValue → Bool
  | [] => true
  | item :: rest => dumps item && dumpsItems rest

def dumpsFields : List (String × PyValue) → Bool
  | [] => true
  | (_,value) :: rest => dumps value && dumpsFields rest
end

mutual
def Related (lower : String → String) : Value → Value → Prop
  | .list items, other => ∃ others, other = .list others ∧ RelatedItems lower items others
  | .tuple items, other => ∃ others, other = .tuple others ∧ RelatedItems lower items others
  | .dict fields, other => ∃ others, other = .dict others ∧ RelatedFields lower fields others
  | value, other => other = value

def RelatedItems (lower : String → String) : List Value → List Value → Prop
  | [], others => others = []
  | item :: rest, others => ∃ other tail, others = other :: tail ∧ Related lower item other ∧
      RelatedItems lower rest tail

/-- The same keys in the same order, and related values under those that are not secret. -/
def RelatedFields (lower : String → String) : Fields → Fields → Prop
  | [], others => others = []
  | (key,value) :: rest, others => ∃ other tail, others = (key,other) :: tail ∧
      (isSecret lower key.text = false → Related lower value other) ∧ RelatedFields lower rest tail
end

section Conditions
variable (lower : String → String)

mutual
/-- No secret key and no unprintable integer, at any depth. -/
def plain : Value → Bool
  | .int n => (intText n).isSome
  | .list items => plainItems items
  | .tuple items => plainItems items
  | .dict fields => plainFields fields
  | _ => true

def plainItems : List Value → Bool
  | [] => true
  | item :: rest => plain item && plainItems rest

def plainFields : Fields → Bool
  | [] => true
  | (key,value) :: rest => !isSecret lower key.text && plain value && plainFields rest
end

mutual
/-- Every tuple outside the values under secret keys is plain. -/
def tuplesPlain : Value → Bool
  | .list items => tuplesPlainItems items
  | .tuple items => plainItems lower items
  | .dict fields => tuplesPlainFields fields
  | _ => true

def tuplesPlainItems : List Value → Bool
  | [] => true
  | item :: rest => tuplesPlain item && tuplesPlainItems rest

def tuplesPlainFields : Fields → Bool
  | [] => true
  | (key,value) :: rest => (isSecret lower key.text || tuplesPlain value) && tuplesPlainFields rest
end

mutual
/-- Every integer that stays in the sanitized value is printable. An entry whose key has the
text of a later one does not stay. -/
def intsPrintable : Value → Bool
  | .int n => (intText n).isSome
  | .list items => intsPrintableItems items
  | .dict fields => intsPrintableFields fields
  | _ => true

def intsPrintableItems : List Value → Bool
  | [] => true
  | item :: rest => intsPrintable item && intsPrintableItems rest

def intsPrintableFields : Fields → Bool
  | [] => true
  | (key,value) :: rest =>
    (isSecret lower key.text || rest.any (fun field => field.1.text == key.text) || intsPrintable value) &&
      intsPrintableFields rest
end

end Conditions

/-! ## Related values are sanitized alike -/

section Relation
variable {lower : String → String}

mutual
theorem Related.refl (value : Value) : Related lower value value := by
  cases value with
  | list items => exact ⟨items,rfl,RelatedItems.refl items⟩
  | tuple items => exact ⟨items,rfl,RelatedItems.refl items⟩
  | dict fields => exact ⟨fields,rfl,RelatedFields.refl fields⟩
  | _ => rfl

theorem RelatedItems.refl (items : List Value) : RelatedItems lower items items := by
  cases items with
  | nil => rfl
  | cons item rest => exact ⟨item,rest,rfl,Related.refl item,RelatedItems.refl rest⟩

theorem RelatedFields.refl (fields : Fields) : RelatedFields lower fields fields := by
  cases fields with
  | nil => rfl
  | cons field rest =>
    obtain ⟨key,value⟩ := field
    exact ⟨value,rest,rfl,fun _ => Related.refl value,RelatedFields.refl rest⟩
end

mutual
/-- Without secret keys there is nothing to differ in. -/
theorem Related.eq_of_plain {value other : Value} (hplain : plain lower value = true) (h : Related lower value other) :
    other = value := by
  cases value with
  | list items =>
    obtain ⟨others,rfl,hitems⟩ := h
    rw [RelatedItems.eq_of_plain hplain hitems]
  | tuple items =>
    obtain ⟨others,rfl,hitems⟩ := h
    rw [RelatedItems.eq_of_plain hplain hitems]
  | dict fields =>
    obtain ⟨others,rfl,hfields⟩ := h
    rw [RelatedFields.eq_of_plain hplain hfields]
  | _ => exact h

theorem RelatedItems.eq_of_plain {items others : List Value} (hplain : plainItems lower items = true)
    (h : RelatedItems lower items others) : others = items := by
  cases items with
  | nil => exact h
  | cons item rest =>
    obtain ⟨other,tail,rfl,hitem,hrest⟩ := h
    simp only [plainItems, Bool.and_eq_true] at hplain
    rw [Related.eq_of_plain hplain.1 hitem, RelatedItems.eq_of_plain hplain.2 hrest]

theorem RelatedFields.eq_of_plain {fields others : Fields} (hplain : plainFields lower fields = true)
    (h : RelatedFields lower fields others) : others = fields := by
  cases fields with
  | nil => exact h
  | cons field rest =>
    obtain ⟨key,value⟩ := field
    obtain ⟨other,tail,rfl,hvalue,hrest⟩ := h
    simp only [plainFields, Bool.and_eq_true, Bool.not_eq_true'] at hplain
    rw [Related.eq_of_plain hplain.1.2 (hvalue hplain.1.1), RelatedFields.eq_of_plain hplain.2 hrest]
end

end Relation

section Sanitized
variable (T : Texts)

mutual
theorem reprValue_of_plain (value : Value) (h : plain T.lower value = true) : (reprValue T value).isSome = true := by
  cases value with
  | int n => exact h
  | list items =>
    obtain ⟨texts,htexts⟩ := Option.isSome_iff_exists.mp (reprItems_of_plain items h)
    simp [reprValue, htexts]
  | tuple items =>
    obtain ⟨texts,htexts⟩ := Option.isSome_iff_exists.mp (reprItems_of_plain items h)
    simp [reprValue, htexts]
  | dict fields =>
    obtain ⟨texts,htexts⟩ := Option.isSome_iff_exists.mp (reprFields_of_plain fields h)
    simp [reprValue, htexts]
  | _ => rfl

theorem reprItems_of_plain (items : List Value) (h : plainItems T.lower items = true) :
    (reprItems T items).isSome = true := by
  cases items with
  | nil => rfl
  | cons item rest =>
    simp only [plainItems, Bool.and_eq_true] at h
    obtain ⟨text,htext⟩ := Option.isSome_iff_exists.mp (reprValue_of_plain item h.1)
    obtain ⟨texts,htexts⟩ := Option.isSome_iff_exists.mp (reprItems_of_plain rest h.2)
    simp [reprItems, htext, htexts]

theorem reprFields_of_plain (fields : Fields) (h : plainFields T.lower fields = true) :
    (reprFields T fields).isSome = true := by
  cases fields with
  | nil => rfl
  | cons field rest =>
    obtain ⟨key,value⟩ := field
    simp only [plainFields, Bool.and_eq_true] at h
    obtain ⟨text,htext⟩ := Option.isSome_iff_exists.mp (reprValue_of_plain value h.1.2)
    obtain ⟨texts,htexts⟩ := Option.isSome_iff_exists.mp (reprFields_of_plain rest h.2)
    simp [reprFields, htext, htexts]
end

mutual
/-- Related values whose tuples are plain are sanitized, and to the same value. -/
theorem sanitizeValue_of_related {value other : Value} (hplain : tuplesPlain T.lower value = true)
    (h : Related T.lower value other) :
    ∃ clean, sanitizeValue T value = some clean ∧ sanitizeValue T other = some clean := by
  cases value with
  | list items =>
    obtain ⟨others,rfl,hitems⟩ := h
    obtain ⟨clean,hclean,hother⟩ := sanitizeValues_of_related hplain hitems
    exact ⟨.list clean,by simp [sanitizeValue, hclean],by simp [sanitizeValue, hother]⟩
  | tuple items =>
    obtain ⟨others,rfl,hitems⟩ := h
    rw [hitems.eq_of_plain hplain]
    obtain ⟨texts,htexts⟩ := Option.isSome_iff_exists.mp (reprItems_of_plain T items hplain)
    exact ⟨.str (tupleText texts),by simp [sanitizeValue, htexts],by simp [sanitizeValue, htexts]⟩
  | dict fields =>
    obtain ⟨others,rfl,hfields⟩ := h
    obtain ⟨entries,hentries,hother⟩ := sanitizeFields_of_related hplain hfields
    exact ⟨.dict (dictOf entries),by simp [sanitizeValue, hentries],by simp [sanitizeValue, hother]⟩
  | _ =>
    obtain rfl := h
    exact ⟨_,rfl,rfl⟩

theorem sanitizeValues_of_related {items others : List Value} (hplain : tuplesPlainItems T.lower items = true)
    (h : RelatedItems T.lower items others) :
    ∃ clean, sanitizeValues T items = some clean ∧ sanitizeValues T others = some clean := by
  cases items with
  | nil =>
    obtain rfl := h
    exact ⟨[],rfl,rfl⟩
  | cons item rest =>
    obtain ⟨other,tail,rfl,hitem,hrest⟩ := h
    simp only [tuplesPlainItems, Bool.and_eq_true] at hplain
    obtain ⟨first,hfirst,hfirst'⟩ := sanitizeValue_of_related hplain.1 hitem
    obtain ⟨clean,hclean,hclean'⟩ := sanitizeValues_of_related hplain.2 hrest
    exact ⟨first :: clean,by simp [sanitizeValues, hfirst, hclean],by simp [sanitizeValues, hfirst', hclean']⟩

theorem sanitizeFields_of_related {fields others : Fields} (hplain : tuplesPlainFields T.lower fields = true)
    (h : RelatedFields T.lower fields others) :
    ∃ entries, sanitizeFields T fields = some entries ∧ sanitizeFields T others = some entries := by
  cases fields with
  | nil =>
    obtain rfl := h
    exact ⟨[],rfl,rfl⟩
  | cons field rest =>
    obtain ⟨key,value⟩ := field
    obtain ⟨other,tail,rfl,hvalue,hrest⟩ := h
    simp only [tuplesPlainFields, Bool.and_eq_true, Bool.or_eq_true] at hplain
    obtain ⟨entries,hentries,hentries'⟩ := sanitizeFields_of_related hplain.2 hrest
    cases hsecret : isSecret T.lower key.text with
    | true =>
      exact ⟨(key.text,.str "[redacted]") :: entries,by simp [sanitizeFields, hsecret, hentries],
        by simp [sanitizeFields, hsecret, hentries']⟩
    | false =>
      obtain ⟨clean,hclean,hclean'⟩ :=
        sanitizeValue_of_related (hplain.1.resolve_left (by simp [hsecret])) (hvalue hsecret)
      exact ⟨(key.text,clean) :: entries,by simp [sanitizeFields, hsecret, hclean, hentries],
        by simp [sanitizeFields, hsecret, hclean', hentries']⟩
end

end Sanitized

/-! ## What `json.dumps` sees -/

/-- The condition on every value that no later entry of its key replaces. -/
def lastEntries (P : PyValue → Bool) : List (String × PyValue) → Bool
  | [] => true
  | (key,value) :: rest => (rest.any (fun entry => entry.1 == key) || P value) && lastEntries P rest

theorem foldl_dictOf_all {P : PyValue → Bool} (entries fields : Payload) :
    (∀ field ∈ entries.foldl (fun fields entry =>
      if fields.any fun field => field.1 == entry.1 then
        fields.map fun field => if field.1 = entry.1 then entry else field
      else fields ++ [entry]) fields, P field.2 = true) ↔
        (∀ field ∈ fields, (entries.any fun entry => entry.1 == field.1) = true ∨ P field.2 = true) ∧
          lastEntries P entries = true := by
  induction entries generalizing fields with
  | nil => simp [lastEntries]
  | cons entry rest ih =>
    rw [List.foldl_cons, ih]
    simp only [lastEntries, Bool.and_eq_true, Bool.or_eq_true, List.any_cons, beq_iff_eq]
    by_cases hold : (fields.any fun field => field.1 == entry.1) = true
    · rw [if_pos hold]
      obtain ⟨old,hmem,hkey⟩ := List.any_eq_true.mp hold
      constructor
      · rintro ⟨hfields,hrest⟩
        refine ⟨fun field hfield => ?_,?_,hrest⟩
        · by_cases hsame : field.1 = entry.1
          · exact .inl (.inl hsame.symm)
          · have hkept := hfields field (List.mem_map.mpr ⟨field,hfield,if_neg hsame⟩)
            exact hkept.imp .inr id
        · exact hfields entry (List.mem_map.mpr ⟨old,hmem,if_pos (by simpa using hkey)⟩)
      · rintro ⟨hfields,hentry,hrest⟩
        refine ⟨fun field hfield => ?_,hrest⟩
        obtain ⟨before,hbefore,rfl⟩ := List.mem_map.mp hfield
        split
        · exact hentry
        · rename_i hne
          rcases hfields before hbefore with (hsame | hlater) | hvalue
          · exact absurd hsame.symm hne
          · exact .inl hlater
          · exact .inr hvalue
    · rw [if_neg hold]
      have hnew : ∀ field ∈ fields, ¬ entry.1 = field.1 := by
        intro field hfield hsame
        exact hold (List.any_eq_true.mpr ⟨field,hfield,by simp [hsame]⟩)
      constructor
      · rintro ⟨hfields,hrest⟩
        refine ⟨fun field hfield => ?_,hfields entry (by simp),hrest⟩
        exact (hfields field (by simp [hfield])).imp .inr id
      · rintro ⟨hfields,hentry,hrest⟩
        refine ⟨fun field hfield => ?_,hrest⟩
        rcases List.mem_append.mp hfield with hfield | hfield
        · rcases hfields field hfield with (hsame | hlater) | hvalue
          · exact absurd hsame (hnew field hfield)
          · exact .inl hlater
          · exact .inr hvalue
        · rw [List.mem_singleton.mp hfield]
          exact hentry

/-- A dict keeps the last value of each key. -/
theorem dictOf_all {P : PyValue → Bool} (entries : Payload) :
    (∀ field ∈ dictOf entries, P field.2 = true) ↔ lastEntries P entries = true := by
  unfold dictOf
  rw [foldl_dictOf_all]
  simp

theorem dumpsFields_iff (fields : Payload) : dumpsFields fields = true ↔ ∀ field ∈ fields, dumps field.2 = true := by
  induction fields with
  | nil => simp [dumpsFields]
  | cons field rest ih =>
    obtain ⟨key,value⟩ := field
    simp [dumpsFields, ih]

theorem dumpsFields_dictOf (entries : Payload) : dumpsFields (dictOf entries) = lastEntries dumps entries := by
  rw [Bool.eq_iff_iff, dumpsFields_iff, dictOf_all]

section Dumped
variable (T : Texts)

/-- The keys of the sanitized entries. -/
theorem sanitizeFields_keys {fields : Fields} {entries : Payload} (h : sanitizeFields T fields = some entries)
    (text : String) :
    (entries.any fun entry => entry.1 == text) = fields.any fun field => field.1.text == text := by
  induction fields generalizing entries with
  | nil =>
    obtain rfl := Option.some.inj h
    rfl
  | cons field rest ih =>
    obtain ⟨key,value⟩ := field
    simp only [sanitizeFields, Option.bind_eq_some_iff, Option.map_eq_some_iff] at h
    obtain ⟨item,-,entries,hentries,rfl⟩ := h
    simp [ih hentries]

mutual
/-- A sanitized value is serialized exactly when the integers in it are printable. -/
theorem dumps_sanitizeValue {value : Value} {clean : PyValue} (h : sanitizeValue T value = some clean) :
    dumps clean = intsPrintable T.lower value := by
  cases value with
  | list items =>
    simp only [sanitizeValue, Option.map_eq_some_iff] at h
    obtain ⟨values,hvalues,rfl⟩ := h
    exact dumps_sanitizeValues hvalues
  | tuple items =>
    simp only [sanitizeValue, Option.map_eq_some_iff] at h
    obtain ⟨text,-,rfl⟩ := h
    rfl
  | dict fields =>
    simp only [sanitizeValue, Option.map_eq_some_iff] at h
    obtain ⟨entries,hentries,rfl⟩ := h
    simp only [dumps, intsPrintable, dumpsFields_dictOf]
    exact dumps_sanitizeFields hentries
  | _ =>
    obtain rfl := Option.some.inj h
    rfl

theorem dumps_sanitizeValues {items : List Value} {values : List PyValue}
    (h : sanitizeValues T items = some values) : dumpsItems values = intsPrintableItems T.lower items := by
  cases items with
  | nil =>
    obtain rfl := Option.some.inj h
    rfl
  | cons item rest =>
    simp only [sanitizeValues, Option.bind_eq_some_iff, Option.map_eq_some_iff] at h
    obtain ⟨first,hfirst,values,hvalues,rfl⟩ := h
    simp only [dumpsItems, intsPrintableItems, dumps_sanitizeValue hfirst, dumps_sanitizeValues hvalues]

theorem dumps_sanitizeFields {fields : Fields} {entries : Payload} (h : sanitizeFields T fields = some entries) :
    lastEntries dumps entries = intsPrintableFields T.lower fields := by
  cases fields with
  | nil =>
    obtain rfl := Option.some.inj h
    rfl
  | cons field rest =>
    obtain ⟨key,value⟩ := field
    simp only [sanitizeFields, Option.bind_eq_some_iff, Option.map_eq_some_iff] at h
    obtain ⟨item,hitem,entries,hentries,rfl⟩ := h
    simp only [lastEntries, intsPrintableFields, sanitizeFields_keys T hentries, dumps_sanitizeFields hentries]
    cases hsecret : isSecret T.lower key.text with
    | true =>
      rw [hsecret, if_pos rfl] at hitem
      obtain rfl := Option.some.inj hitem
      simp [dumps]
    | false =>
      rw [hsecret] at hitem
      rw [dumps_sanitizeValue (by simpa using hitem), Bool.false_or]
end

end Dumped

/-! ## A payload that is not safe -/

/-- The least integer whose text raises. -/
def unprintable : Value := .int (10 ^ maxStrDigits)

theorem intText_unprintable : intText (10 ^ maxStrDigits) = none := by
  simp [intText, Int.natAbs_pow]

section Raising
variable (T : Texts)

mutual
/-- A value that is not plain has a related one that cannot be printed. -/
theorem exists_unprintable {value : Value} (h : plain T.lower value = false) :
    ∃ other, Related T.lower value other ∧ reprValue T other = none := by
  cases value with
  | int n => exact ⟨.int n,rfl,by simpa [plain, reprValue] using h⟩
  | list items =>
    obtain ⟨others,hitems,hnone⟩ := exists_unprintable_items h
    exact ⟨.list others,⟨others,rfl,hitems⟩,by simp [reprValue, hnone]⟩
  | tuple items =>
    obtain ⟨others,hitems,hnone⟩ := exists_unprintable_items h
    exact ⟨.tuple others,⟨others,rfl,hitems⟩,by simp [reprValue, hnone]⟩
  | dict fields =>
    obtain ⟨others,hfields,hnone⟩ := exists_unprintable_fields h
    exact ⟨.dict others,⟨others,rfl,hfields⟩,by simp [reprValue, hnone]⟩
  | _ => cases h

theorem exists_unprintable_items {items : List Value} (h : plainItems T.lower items = false) :
    ∃ others, RelatedItems T.lower items others ∧ reprItems T others = none := by
  cases items with
  | nil => cases h
  | cons item rest =>
    simp only [plainItems, Bool.and_eq_false_iff] at h
    rcases h with h | h
    · obtain ⟨other,hitem,hnone⟩ := exists_unprintable h
      exact ⟨other :: rest,⟨other,rest,rfl,hitem,RelatedItems.refl rest⟩,by simp [reprItems, hnone]⟩
    · obtain ⟨others,hrest,hnone⟩ := exists_unprintable_items h
      exact ⟨item :: others,⟨item,others,rfl,Related.refl item,hrest⟩,by simp [reprItems, hnone]⟩

theorem exists_unprintable_fields {fields : Fields} (h : plainFields T.lower fields = false) :
    ∃ others, RelatedFields T.lower fields others ∧ reprFields T others = none := by
  cases fields with
  | nil => cases h
  | cons field rest =>
    obtain ⟨key,value⟩ := field
    simp only [plainFields, Bool.and_eq_false_iff, Bool.not_eq_false'] at h
    rcases h with (h | h) | h
    · -- What stands under a secret key may be replaced by anything.
      refine ⟨(key,unprintable) :: rest,⟨unprintable,rest,rfl,?_,RelatedFields.refl rest⟩,?_⟩
      · intro hpublic
        rw [h] at hpublic
        cases hpublic
      · simp [reprFields, unprintable, reprValue, intText_unprintable]
    · obtain ⟨other,hvalue,hnone⟩ := exists_unprintable h
      exact ⟨(key,other) :: rest,⟨other,rest,rfl,fun _ => hvalue,RelatedFields.refl rest⟩,by simp [reprFields, hnone]⟩
    · obtain ⟨others,hrest,hnone⟩ := exists_unprintable_fields h
      exact ⟨(key,value) :: others,⟨value,others,rfl,fun _ => Related.refl value,hrest⟩,by simp [reprFields, hnone]⟩
end

mutual
/-- A tuple that is not plain has a related value on which the sanitizer raises. -/
theorem exists_raising {value : Value} (h : tuplesPlain T.lower value = false) :
    ∃ other, Related T.lower value other ∧ sanitizeValue T other = none := by
  cases value with
  | list items =>
    obtain ⟨others,hitems,hnone⟩ := exists_raising_items h
    exact ⟨.list others,⟨others,rfl,hitems⟩,by simp [sanitizeValue, hnone]⟩
  | tuple items =>
    obtain ⟨others,hitems,hnone⟩ := exists_unprintable_items T h
    exact ⟨.tuple others,⟨others,rfl,hitems⟩,by simp [sanitizeValue, hnone]⟩
  | dict fields =>
    obtain ⟨others,hfields,hnone⟩ := exists_raising_fields h
    exact ⟨.dict others,⟨others,rfl,hfields⟩,by simp [sanitizeValue, hnone]⟩
  | _ => cases h

theorem exists_raising_items {items : List Value} (h : tuplesPlainItems T.lower items = false) :
    ∃ others, RelatedItems T.lower items others ∧ sanitizeValues T others = none := by
  cases items with
  | nil => cases h
  | cons item rest =>
    simp only [tuplesPlainItems, Bool.and_eq_false_iff] at h
    rcases h with h | h
    · obtain ⟨other,hitem,hnone⟩ := exists_raising h
      exact ⟨other :: rest,⟨other,rest,rfl,hitem,RelatedItems.refl rest⟩,by simp [sanitizeValues, hnone]⟩
    · obtain ⟨others,hrest,hnone⟩ := exists_raising_items h
      exact ⟨item :: others,⟨item,others,rfl,Related.refl item,hrest⟩,by simp [sanitizeValues, hnone]⟩

theorem exists_raising_fields {fields : Fields} (h : tuplesPlainFields T.lower fields = false) :
    ∃ others, RelatedFields T.lower fields others ∧ sanitizeFields T others = none := by
  cases fields with
  | nil => cases h
  | cons field rest =>
    obtain ⟨key,value⟩ := field
    simp only [tuplesPlainFields, Bool.and_eq_false_iff, Bool.or_eq_false_iff] at h
    rcases h with ⟨hpublic,h⟩ | h
    · obtain ⟨other,hvalue,hnone⟩ := exists_raising h
      exact ⟨(key,other) :: rest,⟨other,rest,rfl,fun _ => hvalue,RelatedFields.refl rest⟩,
        by simp [sanitizeFields, hpublic, hnone]⟩
    · obtain ⟨others,hrest,hnone⟩ := exists_raising_fields h
      exact ⟨(key,value) :: others,⟨value,others,rfl,fun _ => Related.refl value,hrest⟩,
        by simp [sanitizeFields, hnone]⟩
end

end Raising

/-! ## The bus -/

def RuntimeEventType.value : RuntimeEventType → String
  | projectCreated => "project.created"
  | runCreated => "run.created"
  | runStarted => "run.started"
  | runPaused => "run.paused"
  | runResumed => "run.resumed"
  | runCompleted => "run.completed"
  | runFailed => "run.failed"
  | runCancelled => "run.cancelled"
  | taskCreated => "task.created"
  | taskStarted => "task.started"
  | taskProgress => "task.progress"
  | taskCompleted => "task.completed"
  | taskFailed => "task.failed"
  | agentStarted => "agent.started"
  | agentWaiting => "agent.waiting"
  | agentCompleted => "agent.completed"
  | agentFailed => "agent.failed"
  | providerSelected => "provider.selected"
  | providerChanged => "provider.changed"
  | providerError => "provider.error"
  | toolStarted => "tool.started"
  | toolCompleted => "tool.completed"
  | toolFailed => "tool.failed"
  | approvalRequired => "approval.required"
  | approvalApproved => "approval.approved"
  | approvalRejected => "approval.rejected"
  | approvalExpired => "approval.expired"
  | logCreated => "log.created"
  | visionAssetCreated => "vision.asset.created"
  | visionAnalysisQueued => "vision.analysis.queued"
  | visionAnalysisStarted => "vision.analysis.started"
  | visionAnalysisCompleted => "vision.analysis.completed"
  | visionAnalysisFailed => "vision.analysis.failed"
  | visionFolderScanStarted => "vision.folder.scan.started"
  | visionFolderScanCompleted => "vision.folder.scan.completed"
  | nodeRegistered => "node.registered"
  | nodeConnected => "node.connected"
  | nodeOffline => "node.offline"
  | nodeDisabled => "node.disabled"
  | workerTaskRequested => "worker.task.requested"
  | workerTaskCompleted => "worker.task.completed"
  | workerTaskFailed => "worker.task.failed"
  | workerTaskTimedOut => "worker.task.timed_out"
  | checkpointCreated => "checkpoint.created"
  | recoveryAssessed => "recovery.assessed"

/-- A column that may be `None`. -/
def optionalText : Option String → PyValue
  | some text => .str text
  | none => .none

/-- `event_json`; `none` is an exception of `json.dumps`. -/
def eventJson (T : Texts) (event : RuntimeEvent) : Option Payload :=
  let payload : Payload :=
    [("event_id",.str event.id),("type",.str event.type.value),("timestamp",.str (T.isoformat event.timestamp)),
      ("project_id",.str event.projectId),("run_id",optionalText event.runId),("task_id",optionalText event.taskId),
      ("agent_id",optionalText event.agentId),("provider_id",optionalText event.providerId),
      ("severity",.str event.severity),("payload",.dict event.payload)]
  if dumpsFields payload then some payload else none

@[simp] theorem dumps_optionalText (text : Option String) : dumps (optionalText text) = true := by
  cases text <;> rfl

theorem eventJson_isSome (T : Texts) (event : RuntimeEvent) :
    (eventJson T event).isSome = dumpsFields event.payload := by
  simp only [eventJson, dumpsFields, dumps, dumps_optionalText, Bool.true_and, Bool.and_true]
  cases dumpsFields event.payload <;> rfl

namespace RuntimeEventBus

/-- The part of `publish` behind the redaction. -/
def put (bus : RuntimeEventBus) (sanitized : RuntimeEvent) : RuntimeEventBus :=
  let history := bus.events ++ [sanitized]
  { bus with
    events := history.drop (history.length - bus.historyLimit)
    subscribers := bus.subscribers.map fun sub => sub.offer sanitized }

/-- `publish` of the event with the given payload; an exception puts nothing anywhere. -/
def publishValue (T : Texts) (bus : RuntimeEventBus) (event : RuntimeEvent) (payload : Fields) :
    Option RuntimeEventBus :=
  (sanitizeDict T payload).map fun clean => bus.put { event with payload := clean }

/-- Every payload related to this one is published as the same event, which is then serialized. -/
def LeaksNothing (T : Texts) (bus : RuntimeEventBus) (event : RuntimeEvent) (payload : Fields) : Prop :=
  ∀ other, RelatedFields T.lower payload other → ∃ clean,
    sanitizeDict T payload = some clean ∧ sanitizeDict T other = some clean ∧
      bus.publishValue T event payload = some (bus.put { event with payload := clean }) ∧
        bus.publishValue T event other = some (bus.put { event with payload := clean }) ∧
          (eventJson T { event with payload := clean }).isSome = true

end RuntimeEventBus

/-- A payload leaks nothing exactly when its tuples are plain and its integers printable. -/
theorem leaksNothing_iff (T : Texts) (bus : RuntimeEventBus) (event : RuntimeEvent) (payload : Fields) :
    bus.LeaksNothing T event payload ↔
      tuplesPlainFields T.lower payload = true ∧ intsPrintableFields T.lower payload = true := by
  constructor
  · intro h
    constructor
    · by_contra htuples
      obtain ⟨other,hrelated,hnone⟩ := exists_raising_fields T (by simpa using htuples)
      obtain ⟨clean,-,hother,-⟩ := h other hrelated
      simp [sanitizeDict, hnone] at hother
    · obtain ⟨clean,hclean,-,-,-,hjson⟩ := h payload (RelatedFields.refl payload)
      obtain ⟨entries,hentries,rfl⟩ := Option.map_eq_some_iff.mp hclean
      rw [eventJson_isSome, dumpsFields_dictOf] at hjson
      rw [← dumps_sanitizeFields T hentries, hjson]
  · rintro ⟨htuples,hints⟩ other hrelated
    obtain ⟨entries,hentries,hother⟩ := sanitizeFields_of_related T htuples hrelated
    have hclean : sanitizeDict T payload = some (dictOf entries) := by simp [sanitizeDict, hentries]
    have hclean' : sanitizeDict T other = some (dictOf entries) := by simp [sanitizeDict, hother]
    refine ⟨dictOf entries,hclean,hclean',by simp [RuntimeEventBus.publishValue, hclean],
      by simp [RuntimeEventBus.publishValue, hclean'],?_⟩
    rw [eventJson_isSome, dumpsFields_dictOf, dumps_sanitizeFields T hentries, hints]

/-- Texts of the standard library that are exact on plain ASCII strings. -/
def asciiTexts : Texts :=
  { lower := fun s => String.ofList (s.toList.map Char.toLower), reprStr := fun s => "'" ++ s ++ "'",
    reprFloat := fun _ => "0.0", isoformat := fun _ => "2026-01-01T00:00:00+00:00" }

/-- A tuple whose only item holds a token. -/
def tokenTuple (token : String) : Fields :=
  [(⟨"data","'data'"⟩,.tuple [.dict [(⟨"token","'token'"⟩,.str token)]])]

/-- The text of the tuple prints the token. -/
theorem leaksNothing_tuple : RelatedFields asciiTexts.lower (tokenTuple "a") (tokenTuple "b") ∧
    sanitizeDict asciiTexts (tokenTuple "a") = some [("data",.str "(\x7b'token': 'a'\x7d,)")] ∧
      sanitizeDict asciiTexts (tokenTuple "b") = some [("data",.str "(\x7b'token': 'b'\x7d,)")] ∧
        ∀ bus event, ¬ RuntimeEventBus.LeaksNothing asciiTexts bus event (tokenTuple "a") := by
  have hrelated : RelatedFields asciiTexts.lower (tokenTuple "a") (tokenTuple "b") := by
    refine ⟨_,[],rfl,fun _ => ⟨_,rfl,_,[],rfl,⟨_,rfl,.str "b",[],rfl,?_,rfl⟩,rfl⟩,rfl⟩
    intro hpublic
    exact absurd hpublic (by decide)
  have ha : sanitizeDict asciiTexts (tokenTuple "a") = some [("data",.str "(\x7b'token': 'a'\x7d,)")] := rfl
  have hb : sanitizeDict asciiTexts (tokenTuple "b") = some [("data",.str "(\x7b'token': 'b'\x7d,)")] := rfl
  refine ⟨hrelated,ha,hb,fun bus event h => ?_⟩
  obtain ⟨clean,hclean,hother,-⟩ := h (tokenTuple "b") hrelated
  rw [ha] at hclean
  rw [hb, ← hclean] at hother
  simp at hother

/-! ## Payloads without tuples -/

section Erased
variable (T : Texts)

mutual
/-- The value as `PyValue` describes it, every tuple by its text. -/
def eraseValue : Value → Option PyValue
  | .none => some .none
  | .bool b => some (.bool b)
  | .int n => some (.int n)
  | .float x => some (.float x)
  | .str s => some (.str s)
  | .datetime iso _ => some (.datetime iso)
  | .list items => (eraseItems items).map PyValue.list
  | .tuple items => ((reprItems T items).map tupleText).map PyValue.other
  | .dict fields => (eraseFields fields).map PyValue.dict

def eraseItems : List Value → Option (List PyValue)
  | [] => some []
  | item :: rest => (eraseValue item).bind fun value => (eraseItems rest).map fun values => value :: values

def eraseFields : Fields → Option Payload
  | [] => some []
  | (key,value) :: rest => (eraseValue value).bind fun item =>
    (eraseFields rest).map fun entries => (key.text,item) :: entries
end

mutual
/-- Where every tuple can be printed, the sanitizer is the one of `PyValue`. -/
theorem sanitizeValue_of_erase {value : Value} {erased : PyValue} (h : eraseValue T value = some erased) :
    sanitizeValue T value = some (sanitize T.lower erased) := by
  cases value with
  | list items =>
    simp only [eraseValue, Option.map_eq_some_iff] at h
    obtain ⟨values,hvalues,rfl⟩ := h
    simp [sanitizeValue, sanitizeValues_of_erase hvalues, sanitize]
  | tuple items =>
    simp only [eraseValue, Option.map_eq_some_iff] at h
    obtain ⟨text,⟨texts,htexts,rfl⟩,rfl⟩ := h
    simp [sanitizeValue, htexts, sanitize]
  | dict fields =>
    simp only [eraseValue, Option.map_eq_some_iff] at h
    obtain ⟨entries,hentries,rfl⟩ := h
    simp [sanitizeValue, sanitizeFields_of_erase hentries, sanitize]
  | _ =>
    obtain rfl := Option.some.inj h
    simp only [sanitizeValue, sanitize]

theorem sanitizeValues_of_erase {items : List Value} {values : List PyValue}
    (h : eraseItems T items = some values) : sanitizeValues T items = some (sanitizeList T.lower values) := by
  cases items with
  | nil =>
    obtain rfl := Option.some.inj h
    rfl
  | cons item rest =>
    simp only [eraseItems, Option.bind_eq_some_iff, Option.map_eq_some_iff] at h
    obtain ⟨first,hfirst,values,hvalues,rfl⟩ := h
    simp [sanitizeValues, sanitizeValue_of_erase hfirst, sanitizeValues_of_erase hvalues, sanitizeList]

theorem sanitizeFields_of_erase {fields : Fields} {entries : Payload} (h : eraseFields T fields = some entries) :
    sanitizeFields T fields = some (sanitizeItems T.lower entries) := by
  cases fields with
  | nil =>
    obtain rfl := Option.some.inj h
    rfl
  | cons field rest =>
    obtain ⟨key,value⟩ := field
    simp only [eraseFields, Option.bind_eq_some_iff, Option.map_eq_some_iff] at h
    obtain ⟨item,hitem,entries,hentries,rfl⟩ := h
    cases hsecret : isSecret T.lower key.text <;>
      simp [sanitizeFields, hsecret, sanitizeValue_of_erase hitem, sanitizeFields_of_erase hentries, sanitizeItems]
end

/-- Publishing a payload is publishing what `PyValue` keeps of it. -/
theorem publishValue_of_erase {bus : RuntimeEventBus} {event : RuntimeEvent} {payload : Fields} {entries : Payload}
    (h : eraseFields T payload = some entries) :
    bus.publishValue T event payload = some (bus.publish T.lower { event with payload := entries }) := by
  simp only [RuntimeEventBus.publishValue, sanitizeDict, sanitizeFields_of_erase T h, Option.map_some]
  rfl

end Erased

end AgentGraph.Events
