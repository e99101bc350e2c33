import AgentGraph.Foundation.Entries
import AgentGraph.Foundation.JsonLexemes
import AgentGraph.Runtime.Redaction
import Mathlib.Data.List.Sort
import Mathlib.Data.String.Basic

/-! # The texts of JSON columns

`json.dumps`, with `ensure_ascii`, and `json.loads`. An integer beyond the interpreter's digit
limit is a `ValueError` in both, which is `none` here; the texts of finite floats are
parameters. A lone surrogate is no character, so a text that escapes one is refused.
-/
set_option autoImplicit false
namespace AgentGraph

/-- `float.__repr__` and `float` on the literals of floats. -/
structure FloatTexts where
  repr : ℚ → String
  parse : List Char → JsonFloat

def isBlank (c : Char) : Bool := c == ' ' || c == '\t' || c == '\n' || c == '\r'

def skip (text : List Char) : List Char := text.dropWhile isBlank

/-- A comma and a colon, with the blanks behind them. -/
structure Separators where
  itemBlanks : List Char
  keyBlanks : List Char
  item_blank : itemBlanks.all isBlank = true
  key_blank : keyBlanks.all isBlank = true

namespace Separators

/-- `separators=(",", ":")`. -/
def compact : Separators := ⟨[],[],rfl,rfl⟩

/-- The separators of `json.dumps` by default. -/
def spaced : Separators := ⟨[' '],[' '],rfl,rfl⟩

end Separators

namespace Json

/-! ## Writing -/

section Writer
variable (F : FloatTexts) (sep : Separators)

def floatText : JsonFloat → List Char
  | .finite q => (F.repr q).toList
  | .nan => "NaN".toList
  | .infinity negative => (if negative then "-Infinity" else "Infinity").toList

/-- `encode_basestring_ascii`. -/
def quote (s : String) : List Char := '"' :: (JsonText.escape s.toList ++ ['"'])

mutual
def writeValue : Json → Option (List Char)
  | .null => some "null".toList
  | .bool b => some (if b then "true" else "false").toList
  | .int n => (Events.intText n).map String.toList
  | .float x => some (floatText F x)
  | .str s => some (quote s)
  | .arr items => (writeItems items).map fun body => '[' :: (body ++ [']'])
  | .obj fields => (writeMembers fields).map fun body => '{' :: (body ++ ['}'])

def writeItems : List Json → Option (List Char)
  | [] => some []
  | item :: rest => (writeValue item).bind fun head => (writeItems rest).map fun tail =>
    head ++ (if rest.isEmpty then [] else ',' :: (sep.itemBlanks ++ tail))

def writeMembers : List (String × Json) → Option (List Char)
  | [] => some []
  | (key,value) :: rest => (writeValue value).bind fun head => (writeMembers rest).map fun tail =>
    quote key ++ ':' :: (sep.keyBlanks ++ (head ++ (if rest.isEmpty then [] else ',' :: (sep.itemBlanks ++ tail))))
end

end Writer

mutual
/-- The items of every object by their keys, as `sort_keys` writes them. -/
def sortKeys : Json → Json
  | .arr items => .arr (sortItems items)
  | .obj fields => .obj ((sortFields fields).insertionSort fun a b => a.1 ≤ b.1)
  | value => value

def sortItems : List Json → List Json
  | [] => []
  | item :: rest => sortKeys item :: sortItems rest

def sortFields : List (String × Json) → List (String × Json)
  | [] => []
  | (key,value) :: rest => (key,sortKeys value) :: sortFields rest
end

/-- `json.dumps`. -/
def dumps (F : FloatTexts) (sep : Separators) (sorted : Bool) (value : Json) : Option String :=
  (writeValue F sep (if sorted then sortKeys value else value)).map String.ofList

/-! ## Reading -/

section Reader
variable (F : FloatTexts)

def words : List (String × Json) :=
  [("null",.null),("true",.bool true),("false",.bool false),("NaN",.float .nan),
    ("Infinity",.float (.infinity false)),("-Infinity",.float (.infinity true))]

def scanWord (text : List Char) : Option (Json × List Char) :=
  words.findSome? fun word =>
    if word.1.toList.isPrefixOf text then some (word.2,text.drop word.1.toList.length) else none

def ofNumber : JsonText.Number → Option Json
  | .int n => if n.natAbs < 10 ^ Events.maxStrDigits then some (.int n) else none
  | .float literal => some (.float (F.parse literal))

/-- A key and its colon. -/
def scanKey : List Char → Option (String × List Char)
  | [] => none
  | c :: rest =>
    if c = '"' then
      (JsonText.scanString rest).bind fun read =>
        match skip read.2 with
        | [] => none
        | d :: rest => if d = ':' then some (String.ofList read.1,skip rest) else none
    else none

mutual
/-- `scan_once`, with a bound on the calls. -/
def scanValue : ℕ → List Char → Option (Json × List Char)
  | 0, _ => none
  | _ + 1, [] => none
  | fuel + 1, c :: rest =>
    if c = '"' then (JsonText.scanString rest).map fun read => (.str (String.ofList read.1),read.2)
    else if c = '{' then
      match skip rest with
      | [] => none
      | d :: body =>
        if d = '}' then some (.obj [],body)
        else (scanMembers fuel (d :: body)).map fun read => (.obj (Entries.ofList read.1),read.2)
    else if c = '[' then
      match skip rest with
      | [] => none
      | d :: body =>
        if d = ']' then some (.arr [],body)
        else (scanItems fuel (d :: body)).map fun read => (.arr read.1,read.2)
    else
      match scanWord (c :: rest) with
      | some read => some read
      | none => (JsonText.scanNumber (c :: rest)).bind fun read => (ofNumber F read.1).map fun value => (value,read.2)

def scanItems : ℕ → List Char → Option (List Json × List Char)
  | 0, _ => none
  | fuel + 1, text => (scanValue fuel text).bind fun read =>
    match skip read.2 with
    | [] => none
    | c :: rest =>
      if c = ']' then some ([read.1],rest)
      else if c = ',' then (scanItems fuel (skip rest)).map fun more => (read.1 :: more.1,more.2)
      else none

def scanMembers : ℕ → List Char → Option (List (String × Json) × List Char)
  | 0, _ => none
  | fuel + 1, text => (scanKey text).bind fun key => (scanValue fuel key.2).bind fun read =>
    match skip read.2 with
    | [] => none
    | c :: rest =>
      if c = '}' then some ([(key.1,read.1)],rest)
      else if c = ',' then (scanMembers fuel (skip rest)).map fun more => ((key.1,read.1) :: more.1,more.2)
      else none
end

/-- `json.loads`; a character takes at most two calls. -/
def loads (text : String) : Option Json :=
  (scanValue F (2 * text.toList.length) (skip text.toList)).bind fun read =>
    if (skip read.2).isEmpty then some read.1 else none

end Reader

/-- A node of a JSON state: no float, and the keys of an object are distinct. -/
def stateNode : Json → Bool
  | .float _ => false
  | value => value.distinctKeys

/-! ## Reading what was written -/

theorem skip_blanks {blanks : List Char} (h : blanks.all isBlank = true) (text : List Char) :
    skip (blanks ++ text) = skip text := List.dropWhile_append_of_pos (List.all_eq_true.mp h)

theorem skip_of_not_blank {c : Char} (h : isBlank c = false) (text : List Char) : skip (c :: text) = c :: text :=
  List.dropWhile_cons_of_neg (by simp [h])

section RoundTrip
variable (F : FloatTexts) (sep : Separators)

theorem toString_toList (n : ℤ) : (toString n).toList = JsonText.numeral n := by
  unfold JsonText.numeral
  cases n with
  | ofNat m =>
    rw [if_neg (by simp)]
    exact Nat.toList_repr
  | negSucc m =>
    rw [if_pos (by simp)]
    change ("-" ++ Nat.repr (m + 1)).toList = '-' :: Nat.toDigits 10 (m + 1)
    rw [String.toList_append, Nat.toList_repr]
    rfl

theorem numeral_head (n : ℤ) :
    ∃ c rest, JsonText.numeral n = c :: rest ∧ isBlank c = false ∧ c ≠ ']' ∧ c ≠ '}' := by
  unfold JsonText.numeral
  split
  · exact ⟨_,_,rfl,by decide⟩
  · obtain ⟨c,digits,hdigits⟩ := List.exists_cons_of_ne_nil (Nat.toDigits_ne_nil (n := n.natAbs) (b := 10))
    have hdigit := JsonText.isDigit_toDigits n.natAbs c (hdigits ▸ List.mem_cons_self)
    refine ⟨c,digits,hdigits,Bool.eq_false_iff.mpr fun hblank => ?_,?_,?_⟩
    · simp only [isBlank, Bool.or_eq_true, beq_iff_eq] at hblank
      rcases hblank with ((rfl | rfl) | rfl) | rfl <;> cases hdigit
    · rintro rfl
      cases hdigit
    · rintro rfl
      cases hdigit

theorem intText_toList {n : ℤ} {text : String} (h : Events.intText n = some text) :
    text.toList = JsonText.numeral n ∧ n.natAbs < 10 ^ Events.maxStrDigits := by
  unfold Events.intText at h
  split at h
  next hn =>
    cases h
    exact ⟨toString_toList n,hn⟩
  · cases h

/-- No written value starts with a blank or a bracket that closes. -/
theorem writeValue_head {x : Json} (hx : stateNode x = true) {text : List Char} (h : writeValue F sep x = some text) :
    ∃ c rest, text = c :: rest ∧ isBlank c = false ∧ c ≠ ']' ∧ c ≠ '}' := by
  cases x with
  | null => cases h; exact ⟨_,_,rfl,by decide⟩
  | bool b => cases b <;> cases h <;> exact ⟨_,_,rfl,by decide⟩
  | int n =>
    rw [writeValue, Option.map_eq_some_iff] at h
    obtain ⟨string,hstring,rfl⟩ := h
    rw [(intText_toList hstring).1]
    exact numeral_head n
  | float x => cases hx
  | str s => cases h; exact ⟨_,_,rfl,by decide⟩
  | arr items => obtain ⟨body,-,rfl⟩ := Option.map_eq_some_iff.mp h; exact ⟨_,_,rfl,by decide⟩
  | obj fields => obtain ⟨body,-,rfl⟩ := Option.map_eq_some_iff.mp h; exact ⟨_,_,rfl,by decide⟩

/-- What may follow a value. -/
def EndsValue (text : List Char) : Prop := ∀ c ∈ text.head?, c = ',' ∨ c = ']' ∨ c = '}'

theorem EndsValue.number {text : List Char} (h : EndsValue text) : JsonText.EndsNumber text := by
  intro c hc
  rcases h c hc with rfl | rfl | rfl <;> decide

theorem scanString_quote (s : String) (rest : List Char) :
    ∃ text, quote s = '"' :: text ∧ JsonText.scanString (text ++ rest) = some (s.toList,rest) :=
  ⟨_,rfl,by rw [List.append_assoc]; exact JsonText.scanString_escape s.toList rest⟩

theorem scanKey_quote (s : String) {blanks rest : List Char} (hblanks : blanks.all isBlank = true) {c : Char}
    (hc : isBlank c = false) :
    scanKey (quote s ++ ':' :: (blanks ++ c :: rest)) = some (s,c :: rest) := by
  obtain ⟨text,htext,hscan⟩ := scanString_quote s (':' :: (blanks ++ c :: rest))
  rw [htext, List.cons_append, scanKey, if_pos rfl, hscan, Option.bind_some]
  dsimp only
  rw [skip_of_not_blank (by decide)]
  dsimp only
  rw [if_pos rfl, skip_blanks hblanks, skip_of_not_blank hc, String.ofList_toList]

theorem writeItems_head {item : Json} {rest : List Json} (hitem : stateNode item = true) {text : List Char}
    (h : writeItems F sep (item :: rest) = some text) :
    ∃ c more, text = c :: more ∧ isBlank c = false ∧ c ≠ ']' := by
  rw [writeItems, Option.bind_eq_some_iff] at h
  obtain ⟨head,hhead,h⟩ := h
  obtain ⟨tail,-,rfl⟩ := Option.map_eq_some_iff.mp h
  obtain ⟨c,more,rfl,hblank,hclose,-⟩ := writeValue_head F sep hitem hhead
  exact ⟨c,_,rfl,hblank,hclose⟩

theorem writeMembers_head {field : String × Json} {rest : List (String × Json)} {text : List Char}
    (h : writeMembers F sep (field :: rest) = some text) : ∃ more, text = '"' :: more := by
  rw [writeMembers, Option.bind_eq_some_iff] at h
  obtain ⟨head,hhead,h⟩ := h
  obtain ⟨tail,-,rfl⟩ := Option.map_eq_some_iff.mp h
  exact ⟨_,rfl⟩

/-- The value is read back from its text, whatever follows. -/
def Reads (x : Json) : Prop :=
  ∀ text, writeValue F sep x = some text → ∀ fuel rest, text.length ≤ fuel → EndsValue rest →
    scanValue F fuel (text ++ rest) = some (x,rest)

theorem scanItems_write {items : List Json} (hne : items ≠ [])
    (hitems : ∀ item ∈ items, stateNode item = true ∧ Reads F sep item) {text : List Char}
    (h : writeItems F sep items = some text) {fuel : ℕ} (hfuel : text.length < fuel) (rest : List Char) :
    scanItems F fuel (text ++ ']' :: rest) = some (items,rest) := by
  induction items generalizing text fuel with
  | nil => exact absurd rfl hne
  | cons item more ih =>
    obtain ⟨hnode,hread⟩ := hitems item List.mem_cons_self
    rw [writeItems, Option.bind_eq_some_iff] at h
    obtain ⟨head,hhead,h⟩ := h
    obtain ⟨tail,htail,rfl⟩ := Option.map_eq_some_iff.mp h
    obtain ⟨fuel,rfl⟩ : ∃ n, fuel = n + 1 := ⟨fuel - 1,by omega⟩
    rw [List.length_append] at hfuel
    cases more with
    | nil =>
      rw [scanItems, List.isEmpty_nil, if_pos rfl, List.append_nil,
        hread head hhead fuel (']' :: rest) (by omega) (by rintro c ⟨⟩; decide), Option.bind_some]
      dsimp only
      rw [skip_of_not_blank (by decide)]
      rfl
    | cons next more =>
      have hmore : ∀ item ∈ next :: more, stateNode item = true ∧ Reads F sep item :=
        fun item hitem => hitems item (.tail _ hitem)
      obtain ⟨c,after,hafter,hblank,-⟩ := writeItems_head F sep (hmore next List.mem_cons_self).1 htail
      rw [List.isEmpty_cons, if_neg (by decide)] at hfuel ⊢
      simp only [List.length_cons, List.length_append] at hfuel
      have hrest : scanItems F fuel (tail ++ ']' :: rest) = some (next :: more,rest) :=
        ih (by simp) hmore htail (by omega)
      have htext : head ++ ',' :: (sep.itemBlanks ++ tail) ++ ']' :: rest =
          head ++ ',' :: (sep.itemBlanks ++ (tail ++ ']' :: rest)) := by simp
      rw [htext, scanItems, hread head hhead fuel _ (by omega) (by rintro c ⟨⟩; decide), Option.bind_some]
      dsimp only
      rw [skip_of_not_blank (by decide)]
      dsimp only
      rw [if_neg (by decide), if_pos rfl, skip_blanks sep.item_blank]
      have hskip : skip (tail ++ ']' :: rest) = tail ++ ']' :: rest := by
        rw [hafter]
        exact skip_of_not_blank hblank _
      rw [hskip, hrest, Option.map_some]

theorem scanMembers_write {fields : List (String × Json)} (hne : fields ≠ [])
    (hfields : ∀ field ∈ fields, stateNode field.2 = true ∧ Reads F sep field.2) {text : List Char}
    (h : writeMembers F sep fields = some text) {fuel : ℕ} (hfuel : text.length < fuel) (rest : List Char) :
    scanMembers F fuel (text ++ '}' :: rest) = some (fields,rest) := by
  induction fields generalizing text fuel with
  | nil => exact absurd rfl hne
  | cons field more ih =>
    obtain ⟨key,value⟩ := field
    obtain ⟨hnode,hread⟩ := hfields (key,value) List.mem_cons_self
    rw [writeMembers, Option.bind_eq_some_iff] at h
    obtain ⟨head,hhead,h⟩ := h
    obtain ⟨tail,htail,rfl⟩ := Option.map_eq_some_iff.mp h
    obtain ⟨fuel,rfl⟩ : ∃ n, fuel = n + 1 := ⟨fuel - 1,by omega⟩
    obtain ⟨c,inner,hinner,hblank,-⟩ := writeValue_head F sep hnode hhead
    have hkey (after : List Char) :
        scanKey (quote key ++ ':' :: (sep.keyBlanks ++ (head ++ after))) = some (key,head ++ after) := by
      rw [hinner]
      exact scanKey_quote key sep.key_blank hblank
    simp only [List.length_append, List.length_cons] at hfuel
    cases more with
    | nil =>
      have htext : quote key ++ ':' :: (sep.keyBlanks ++ (head ++ (if ([] : List (String × Json)).isEmpty then []
          else ',' :: (sep.itemBlanks ++ tail)))) ++ '}' :: rest =
          quote key ++ ':' :: (sep.keyBlanks ++ (head ++ '}' :: rest)) := by simp
      rw [htext, scanMembers, hkey, Option.bind_some,
        hread head hhead fuel ('}' :: rest) (by omega) (by rintro c ⟨⟩; decide), Option.bind_some]
      dsimp only
      rw [skip_of_not_blank (by decide)]
      rfl
    | cons next more =>
      have hmore : ∀ field ∈ next :: more, stateNode field.2 = true ∧ Reads F sep field.2 :=
        fun field hfield => hfields field (.tail _ hfield)
      obtain ⟨after,hafter⟩ := writeMembers_head F sep htail
      rw [List.isEmpty_cons, if_neg (by decide)] at hfuel ⊢
      simp only [List.length_cons, List.length_append] at hfuel
      have hrest : scanMembers F fuel (tail ++ '}' :: rest) = some (next :: more,rest) :=
        ih (by simp) hmore htail (by omega)
      have htext : quote key ++ ':' :: (sep.keyBlanks ++ (head ++ ',' :: (sep.itemBlanks ++ tail))) ++ '}' :: rest =
          quote key ++ ':' :: (sep.keyBlanks ++ (head ++ ',' :: (sep.itemBlanks ++ (tail ++ '}' :: rest)))) := by simp
      rw [htext, scanMembers, hkey, Option.bind_some,
        hread head hhead fuel _ (by omega) (by rintro c ⟨⟩; decide), Option.bind_some]
      dsimp only
      rw [skip_of_not_blank (by decide)]
      dsimp only
      rw [if_neg (by decide), if_pos rfl, skip_blanks sep.item_blank]
      have hskip : skip (tail ++ '}' :: rest) = tail ++ '}' :: rest := by
        rw [hafter]
        exact skip_of_not_blank (by decide) _
      rw [hskip, hrest, Option.map_some]

theorem scanWord_digit {c : Char} (hc : c.isDigit = true) (rest : List Char) : scanWord (c :: rest) = none := by
  have hwords : ∀ word ∈ words, ∃ d more, word.1.toList = d :: more ∧ d.isDigit = false := by
    intro word hword
    simp only [words, List.mem_cons, List.not_mem_nil, or_false] at hword
    rcases hword with rfl | rfl | rfl | rfl | rfl | rfl <;> exact ⟨_,_,rfl,by decide⟩
  refine List.findSome?_eq_none_iff.mpr fun word hword => if_neg fun hprefix => ?_
  obtain ⟨d,more,hmore,hd⟩ := hwords word hword
  rw [hmore, List.isPrefixOf_cons_cons, Bool.and_eq_true, beq_iff_eq] at hprefix
  rw [← hprefix.1, hd] at hc
  cases hc

theorem scanWord_minus {c : Char} (hc : c.isDigit = true) (rest : List Char) :
    scanWord ('-' :: c :: rest) = none := by
  have hwords : ∀ word ∈ words, ∃ d e more, word.1.toList = d :: e :: more ∧ e.isDigit = false := by
    intro word hword
    simp only [words, List.mem_cons, List.not_mem_nil, or_false] at hword
    rcases hword with rfl | rfl | rfl | rfl | rfl | rfl <;> exact ⟨_,_,_,rfl,by decide⟩
  refine List.findSome?_eq_none_iff.mpr fun word hword => if_neg fun hprefix => ?_
  obtain ⟨d,e,more,hmore,he⟩ := hwords word hword
  rw [hmore, List.isPrefixOf_cons_cons, List.isPrefixOf_cons_cons, Bool.and_eq_true, Bool.and_eq_true, beq_iff_eq,
    beq_iff_eq] at hprefix
  rw [← hprefix.2.1, he] at hc
  cases hc

/-- A numeral starts like no string, object, list or word. -/
theorem scanWord_numeral (n : ℤ) (rest : List Char) :
    ∃ c text, JsonText.numeral n ++ rest = c :: text ∧ c ≠ '"' ∧ c ≠ '{' ∧ c ≠ '[' ∧ scanWord (c :: text) = none := by
  obtain ⟨c,digits,hdigits⟩ := List.exists_cons_of_ne_nil (Nat.toDigits_ne_nil (n := n.natAbs) (b := 10))
  have hc := JsonText.isDigit_toDigits n.natAbs c (hdigits ▸ List.mem_cons_self)
  unfold JsonText.numeral
  rw [hdigits]
  split
  · exact ⟨_,_,rfl,by decide,by decide,by decide,scanWord_minus hc _⟩
  · refine ⟨_,_,rfl,?_,?_,?_,scanWord_digit hc _⟩ <;> rintro rfl <;> cases hc

theorem reads_int (n : ℤ) : Reads F sep (.int n) := by
  intro text h fuel rest hfuel hrest
  rw [writeValue, Option.map_eq_some_iff] at h
  obtain ⟨string,hstring,rfl⟩ := h
  obtain ⟨hnumeral,hn⟩ := intText_toList hstring
  have hscan := JsonText.scanNumber_numeral n hrest.number
  obtain ⟨c,more,hmore,hquote,hbrace,hbracket,hword⟩ := scanWord_numeral n rest
  obtain ⟨_,_,hhead,-⟩ := numeral_head n
  rw [hnumeral, hhead, List.length_cons] at hfuel
  obtain ⟨fuel,rfl⟩ : ∃ k, fuel = k + 1 := ⟨fuel - 1,by omega⟩
  rw [hmore] at hscan
  rw [hnumeral, hmore, scanValue, if_neg hquote, if_neg hbrace, if_neg hbracket, hword]
  dsimp only
  rw [hscan, Option.bind_some, ofNumber, if_pos hn, Option.map_some]

theorem reads_arr {items : List Json} (hitems : ∀ item ∈ items, stateNode item = true ∧ Reads F sep item) :
    Reads F sep (.arr items) := by
  intro text h fuel rest hfuel hrest
  rw [writeValue, Option.map_eq_some_iff] at h
  obtain ⟨body,hbody,rfl⟩ := h
  simp only [List.length_cons, List.length_append, List.length_nil] at hfuel
  obtain ⟨fuel,rfl⟩ : ∃ n, fuel = n + 1 := ⟨fuel - 1,by omega⟩
  have htext : '[' :: (body ++ [']']) ++ rest = '[' :: (body ++ ']' :: rest) := by simp
  rw [htext, scanValue, if_neg (by decide), if_neg (by decide), if_pos rfl]
  cases items with
  | nil =>
    cases hbody
    rw [List.nil_append, skip_of_not_blank (by decide)]
    rfl
  | cons item more =>
    obtain ⟨c,after,hafter,hblank,hclose⟩ := writeItems_head F sep (hitems item List.mem_cons_self).1 hbody
    have hread : scanItems F fuel (body ++ ']' :: rest) = some (item :: more,rest) :=
      scanItems_write F sep (by simp) hitems hbody (by omega) rest
    rw [hafter, List.cons_append] at hread ⊢
    rw [skip_of_not_blank hblank]
    dsimp only
    rw [if_neg hclose, hread, Option.map_some]

theorem reads_obj {fields : List (String × Json)} (hkeys : (fields.map Prod.fst).Nodup)
    (hfields : ∀ field ∈ fields, stateNode field.2 = true ∧ Reads F sep field.2) : Reads F sep (.obj fields) := by
  intro text h fuel rest hfuel hrest
  rw [writeValue, Option.map_eq_some_iff] at h
  obtain ⟨body,hbody,rfl⟩ := h
  simp only [List.length_cons, List.length_append, List.length_nil] at hfuel
  obtain ⟨fuel,rfl⟩ : ∃ n, fuel = n + 1 := ⟨fuel - 1,by omega⟩
  have htext : '{' :: (body ++ ['}']) ++ rest = '{' :: (body ++ '}' :: rest) := by simp
  rw [htext, scanValue, if_neg (by decide), if_pos rfl]
  cases fields with
  | nil =>
    cases hbody
    rw [List.nil_append, skip_of_not_blank (by decide)]
    rfl
  | cons field more =>
    obtain ⟨after,hafter⟩ := writeMembers_head F sep hbody
    have hread : scanMembers F fuel (body ++ '}' :: rest) = some (field :: more,rest) :=
      scanMembers_write F sep (by simp) hfields hbody (by omega) rest
    rw [hafter, List.cons_append] at hread ⊢
    rw [skip_of_not_blank (by decide)]
    dsimp only
    rw [if_neg (by decide), hread, Option.map_some, Entries.ofList_of_nodup hkeys]

theorem reads_str (s : String) : Reads F sep (.str s) := by
  intro text h fuel rest hfuel hrest
  rw [writeValue, Option.some.injEq] at h
  obtain ⟨body,hbody,hscan⟩ := scanString_quote s rest
  rw [← h, hbody, List.length_cons] at hfuel
  obtain ⟨fuel,rfl⟩ : ∃ k, fuel = k + 1 := ⟨fuel - 1,by omega⟩
  rw [← h, hbody, List.cons_append, scanValue, if_pos rfl, hscan, Option.map_some, String.ofList_toList]

theorem reads_word {x : Json} {c : Char} {word : List Char} (hword : writeValue F sep x = some (c :: word))
    (hquote : c ≠ '"') (hbrace : c ≠ '{') (hbracket : c ≠ '[')
    (hscan : ∀ rest, scanWord (c :: (word ++ rest)) = some (x,rest)) : Reads F sep x := by
  intro text h fuel rest hfuel hrest
  obtain rfl : c :: word = text := Option.some.inj (hword.symm.trans h)
  rw [List.length_cons] at hfuel
  obtain ⟨fuel,rfl⟩ : ∃ k, fuel = k + 1 := ⟨fuel - 1,by omega⟩
  rw [List.cons_append, scanValue, if_neg hquote, if_neg hbrace, if_neg hbracket, hscan]

theorem reads_state {x : Json} (hx : x.everywhere stateNode = true) : Reads F sep x := by
  induction x using treeInduction with
  | null => exact reads_word F sep rfl (by decide) (by decide) (by decide) fun _ => rfl
  | bool b => cases b <;> exact reads_word F sep rfl (by decide) (by decide) (by decide) fun _ => rfl
  | int n => exact reads_int F sep n
  | float x => cases hx
  | str s => exact reads_str F sep s
  | arr items ih =>
    rw [everywhere_arr] at hx
    exact reads_arr F sep fun item hitem => ⟨everywhere_self (hx.2 item hitem),ih item hitem (hx.2 item hitem)⟩
  | obj fields ih =>
    rw [everywhere_obj] at hx
    exact reads_obj F sep ((distinctKeys_obj fields).mp hx.1) fun field hfield =>
      ⟨everywhere_self (hx.2 field hfield),ih field hfield (hx.2 field hfield)⟩

/-- A state is read back from any text `json.dumps` writes of it. -/
theorem loads_write {x : Json} (hx : x.everywhere stateNode = true) {text : List Char}
    (h : writeValue F sep x = some text) : loads F (String.ofList text) = some x := by
  obtain ⟨c,more,hmore,hblank,-⟩ := writeValue_head F sep (everywhere_self hx) h
  have hread := reads_state F sep hx text h (2 * text.length) [] (by omega) (by rintro c ⟨⟩)
  have hskip : skip text = text := by
    rw [hmore]
    exact skip_of_not_blank hblank more
  rw [List.append_nil] at hread
  rw [loads, String.toList_ofList, hskip, hread, Option.bind_some]
  rfl

-- a surrogate pair, blanks, and a key that comes twice
example :
    ((loads ⟨fun _ => "",fun _ => .nan⟩ " \x7b\"k\": -20, \"k\" :[\"\\uD83D\\ude00\"]\x7d\n").bind fun x =>
      dumps ⟨fun _ => "",fun _ => .nan⟩ .compact true x) = some "\x7b\"k\":[\"\\ud83d\\ude00\"]\x7d" := by
  decide +kernel

end RoundTrip
/-! ## The bound on the calls -/

theorem skip_le (text : List Char) : (skip text).length ≤ text.length := (List.dropWhile_suffix _).length_le

theorem scanWord_lt {text rest : List Char} {x : Json} (h : scanWord text = some (x,rest)) :
    rest.length < text.length := by
  obtain ⟨word,hword,h⟩ := List.exists_of_findSome?_eq_some h
  have hlong : 0 < word.1.toList.length := by
    simp only [words, List.mem_cons, List.not_mem_nil, or_false] at hword
    rcases hword with rfl | rfl | rfl | rfl | rfl | rfl <;> decide
  split at h
  next hprefix =>
    obtain ⟨-,rfl⟩ := Prod.mk.inj (Option.some.inj h)
    have hle := (List.isPrefixOf_iff_prefix.mp hprefix).length_le
    rw [List.length_drop]
    omega
  · cases h

theorem scanKey_lt {text rest : List Char} {key : String} (h : scanKey text = some (key,rest)) :
    rest.length < text.length := by
  cases text with
  | nil => cases h
  | cons c text =>
    rw [scanKey] at h
    split at h
    · obtain ⟨⟨string,after⟩,hstring,h⟩ := Option.bind_eq_some_iff.mp h
      have hlt := JsonText.scanString_lt hstring
      have hskip := skip_le after
      dsimp only at h
      split at h
      · cases h
      next d more hmore =>
        have hmoreSkip := skip_le more
        rw [hmore, List.length_cons] at hskip
        split at h
        · cases h
          rw [List.length_cons]
          omega
        · cases h
    · cases h

section Bound
variable (F : FloatTexts)

/-- What the three scanners leave, within a bound. -/
structure Shortens (fuel : ℕ) : Prop where
  value : ∀ {text rest x}, scanValue F fuel text = some (x,rest) → rest.length < text.length
  items : ∀ {text rest xs}, scanItems F fuel text = some (xs,rest) → rest.length < text.length
  members : ∀ {text rest fields}, scanMembers F fuel text = some (fields,rest) → rest.length < text.length

theorem shortens_value {fuel : ℕ} (ih : Shortens F fuel) {text rest : List Char} {x : Json}
    (h : scanValue F (fuel + 1) text = some (x,rest)) : rest.length < text.length := by
  cases text with
  | nil => cases h
  | cons c text =>
    have hskip := skip_le text
    rw [scanValue] at h
    split_ifs at h with hquote hbrace hbracket
    · obtain ⟨⟨string,after⟩,hread,heq⟩ := Option.map_eq_some_iff.mp h
      cases heq
      exact (JsonText.scanString_lt hread).trans (by simp)
    · split at h
      · cases h
      next d body hbody =>
        rw [hbody, List.length_cons] at hskip
        rw [List.length_cons]
        split at h
        · cases h
          omega
        · obtain ⟨⟨fields,after⟩,hread,heq⟩ := Option.map_eq_some_iff.mp h
          cases heq
          have hlt := ih.members hread
          rw [List.length_cons] at hlt
          dsimp only
          omega
    · split at h
      · cases h
      next d body hbody =>
        rw [hbody, List.length_cons] at hskip
        rw [List.length_cons]
        split at h
        · cases h
          omega
        · obtain ⟨⟨xs,after⟩,hread,heq⟩ := Option.map_eq_some_iff.mp h
          cases heq
          have hlt := ih.items hread
          rw [List.length_cons] at hlt
          dsimp only
          omega
    · split at h
      next read hword =>
        cases h
        exact scanWord_lt hword
      · obtain ⟨⟨number,after⟩,hread,h⟩ := Option.bind_eq_some_iff.mp h
        obtain ⟨value,-,heq⟩ := Option.map_eq_some_iff.mp h
        cases heq
        exact JsonText.scanNumber_lt hread

theorem shortens (fuel : ℕ) : Shortens F fuel := by
  induction fuel with
  | zero => exact ⟨nofun,nofun,nofun⟩
  | succ fuel ih =>
    refine ⟨shortens_value F ih,?_,?_⟩
    · intro text rest xs h
      rw [scanItems] at h
      obtain ⟨⟨x,after⟩,hread,h⟩ := Option.bind_eq_some_iff.mp h
      have hlt := ih.value hread
      have hskip := skip_le after
      dsimp only at h
      split at h
      · cases h
      next c more hmore =>
        rw [hmore, List.length_cons] at hskip
        have hmoreSkip := skip_le more
        split_ifs at h
        · cases h
          omega
        · obtain ⟨⟨ys,last⟩,hrest,heq⟩ := Option.map_eq_some_iff.mp h
          cases heq
          have hrestLt := ih.items hrest
          dsimp only
          omega
    · intro text rest fields h
      rw [scanMembers] at h
      obtain ⟨⟨key,body⟩,hkey,h⟩ := Option.bind_eq_some_iff.mp h
      obtain ⟨⟨x,after⟩,hread,h⟩ := Option.bind_eq_some_iff.mp h
      have hkeyLt := scanKey_lt hkey
      have hlt := ih.value hread
      have hskip := skip_le after
      dsimp only at h hlt
      split at h
      · cases h
      next c more hmore =>
        rw [hmore, List.length_cons] at hskip
        have hmoreSkip := skip_le more
        split_ifs at h
        · cases h
          omega
        · obtain ⟨⟨others,last⟩,hrest,heq⟩ := Option.map_eq_some_iff.mp h
          cases heq
          have hrestLt := ih.members hrest
          dsimp only
          omega

/-- Two calls for each character are enough. -/
structure Enough (fuel : ℕ) : Prop where
  value : ∀ text : List Char, 2 * text.length ≤ fuel → scanValue F (fuel + 1) text = scanValue F fuel text
  items : ∀ text : List Char, 2 * text.length < fuel → scanItems F (fuel + 1) text = scanItems F fuel text
  members : ∀ text : List Char, 2 * text.length < fuel → scanMembers F (fuel + 1) text = scanMembers F fuel text

theorem enough_value {fuel : ℕ} (ih : Enough F fuel) (text : List Char) (h : 2 * text.length ≤ fuel + 1) :
    scanValue F (fuel + 2) text = scanValue F (fuel + 1) text := by
  cases text with
  | nil => rfl
  | cons c text =>
    rw [List.length_cons] at h
    have hskip := skip_le text
    rw [scanValue, scanValue]
    cases hbody : skip text with
    | nil => rfl
    | cons d body =>
      rw [hbody] at hskip
      dsimp only
      rw [ih.items (d :: body) (by omega), ih.members (d :: body) (by omega)]

theorem enough (fuel : ℕ) : Enough F fuel := by
  induction fuel with
  | zero =>
    refine ⟨fun text h => ?_,fun text h => absurd h (by omega),fun text h => absurd h (by omega)⟩
    obtain rfl : text = [] := List.length_eq_zero_iff.mp (by omega)
    rfl
  | succ fuel ih =>
    refine ⟨enough_value F ih,fun text h => ?_,fun text h => ?_⟩
    · rw [scanItems, scanItems, ih.value text (by omega)]
      refine Option.bind_congr fun read hread => ?_
      have hlt : read.2.length < text.length := (shortens F fuel).value hread
      have hskip := skip_le read.2
      split
      · rfl
      next c more hmore =>
        have hmoreSkip := skip_le more
        rw [hmore, List.length_cons] at hskip
        rw [ih.items (skip more) (by omega)]
    · rw [scanMembers, scanMembers]
      refine Option.bind_congr fun key hkey => ?_
      have hkeyLt : key.2.length < text.length := scanKey_lt hkey
      rw [ih.value key.2 (by omega)]
      refine Option.bind_congr fun read hread => ?_
      have hlt : read.2.length < key.2.length := (shortens F fuel).value hread
      have hskip := skip_le read.2
      split
      · rfl
      next c more hmore =>
        have hmoreSkip := skip_le more
        rw [hmore, List.length_cons] at hskip
        rw [ih.members (skip more) (by omega)]

/-- A larger bound reads no text otherwise. -/
theorem loads_bound {fuel : ℕ} (text : String) (h : 2 * text.toList.length ≤ fuel) :
    scanValue F fuel (skip text.toList) = scanValue F (2 * text.toList.length) (skip text.toList) := by
  have hskip := skip_le text.toList
  obtain ⟨k,rfl⟩ := Nat.exists_eq_add_of_le h
  clear h
  induction k with
  | zero => rfl
  | succ k ih => rw [← ih, ← Nat.add_assoc, (enough F _).value _ (by omega)]

end Bound
end Json

end AgentGraph
