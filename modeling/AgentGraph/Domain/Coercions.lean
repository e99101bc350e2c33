import AgentGraph.Domain.TeamGraph
import AgentGraph.Foundation.Codec
import Mathlib.Data.Nat.Digits.Defs
import Mathlib.Tactic.NormNum

/-! # What the validators coerce

The models of requests and of protocol messages validate JSON values. What a validator takes
for a number or a UUID beside the values that are of that type is a parameter.
-/
set_option autoImplicit false
namespace AgentGraph
open Document

/-- What the validator takes for a number or a UUID, and the texts of UUIDs. -/
structure Lax where
  int : Json → Option ℤ
  float : Json → Option JsonFloat
  uuid : Json → Option AgentId
  uuidText : AgentId → String
  /-- `UUID(text)`. -/
  parseUuid : String → Option AgentId
  int_int : ∀ n, int (.int n) = some n
  float_float : ∀ x, float (.float x) = some x
  uuid_text : ∀ u, uuid (.str (uuidText u)) = some u
  parseUuid_text : ∀ u, parseUuid (uuidText u) = some u

def jsonFormat : Format Json where
  null := .null
  arr := .arr
  obj := .obj
  isNull
    | .null => true
    | _ => false
  items := Json.list?
  fields := Json.dict?
  isNull_null := rfl
  items_arr _ := rfl
  fields_obj _ := rfl

def strCodec : Codec Json String where
  dump := .str
  validate := Json.str?
  validate_dump _ := rfl

def intCodec (lax : Lax) : Codec Json ℤ where
  dump := .int
  validate := lax.int
  validate_dump := lax.int_int

def floatCodec (lax : Lax) : Codec Json JsonFloat where
  dump := .float
  validate := lax.float
  validate_dump := lax.float_float

def uuidCodec (lax : Lax) : Codec Json AgentId where
  dump u := .str (lax.uuidText u)
  validate := lax.uuid
  validate_dump := lax.uuid_text

/-- A text with a length between two bounds. -/
abbrev BoundedText (low high : Nat) := {text : String // low ≤ text.length ∧ text.length ≤ high}

def textCodec (low high : Nat) : Codec Json (BoundedText low high) :=
  strCodec.refine fun text => low ≤ text.length ∧ text.length ≤ high

/-! ## Coercions that meet the assumptions -/

def hexDigit (d : Nat) : Char := "0123456789abcdef".toList.getD d '0'

def hexValue (c : Char) : Option Nat := "0123456789abcdef".toList.idxOf? c

theorem hexValue_hexDigit : ∀ d < 16, hexValue (hexDigit d) = some d := by decide

def uuidGroups : List Char := "00000000-0000-0000-0000-".toList

/-- `str(UUID(int=u))` of a number that fits into the last group. -/
def lowUuidText (u : AgentId) : String :=
  let digits := Nat.digits 16 u
  String.ofList (uuidGroups ++ (digits ++ List.replicate (12 - digits.length) 0).reverse.map hexDigit)

def lowUuid (text : String) : Option AgentId :=
  if uuidGroups.isPrefixOf text.toList then
    ((text.toList.drop uuidGroups.length).reverse.mapM hexValue).map (Nat.ofDigits 16)
  else none

theorem mapM_hexValue {ds : List Nat} (h : ∀ d ∈ ds, d < 16) : (ds.map hexDigit).mapM hexValue = some ds := by
  induction ds with
  | nil => rfl
  | cons d ds ih =>
    have hd := hexValue_hexDigit d (h d List.mem_cons_self)
    simp [hd, ih fun e he => h e (List.mem_cons_of_mem _ he)]

theorem lowUuid_text (u : AgentId) : lowUuid (lowUuidText u) = some u := by
  have hlt : ∀ d ∈ Nat.digits 16 u ++ List.replicate (12 - (Nat.digits 16 u).length) 0, d < 16 := by
    intro d hd
    obtain h | h := List.mem_append.mp hd
    · exact Nat.digits_lt_base (by norm_num) h
    · rw [List.eq_of_mem_replicate h]
      norm_num
  generalize hgroups : uuidGroups = groups
  simp only [lowUuid, lowUuidText, hgroups, String.toList_ofList]
  rw [if_pos (List.isPrefixOf_iff_prefix.mpr (List.prefix_append _ _)), List.drop_left, ← List.map_reverse,
    List.reverse_reverse, mapM_hexValue hlt, Option.map_some, Nat.ofDigits_append_replicate_zero, Nat.ofDigits_digits]

/-- The coercions of values that are of their type already, and of integers to floats. -/
def plainLax : Lax where
  int
    | .int n => some n
    | _ => none
  float
    | .float x => some x
    | .int n => some (.finite n)
    | _ => none
  uuid
    | .str text => lowUuid text
    | _ => none
  uuidText := lowUuidText
  parseUuid := lowUuid
  int_int _ := rfl
  float_float _ := rfl
  uuid_text u := lowUuid_text u
  parseUuid_text := lowUuid_text

end AgentGraph
