import AgentGraph.Persistence.JsonEquality
import AgentGraph.Recovery.Ledger
import AgentGraph.Recovery.Redactor

/-! # The checksum of a checkpoint

The checksum is the SHA-256 of the compact text with sorted keys. The state itself is stored
as `json.dumps` writes it by default, and checked again when a stale run is assessed.
-/
set_option autoImplicit false
namespace AgentGraph

/-- A JSON value without floats, built to any depth. -/
structure JsonState where
  value : Json
  state : value.everywhere Json.stateNode = true

namespace Json

/-- The digits of an integer are within the limit. -/
def printableNode : Json → Bool
  | .int n => (Events.intText n).isSome
  | _ => true

def printable (x : Json) : Bool := x.everywhere printableNode

end Json

namespace Recovery
variable (F : FloatTexts) (sha256 : String → String)

/-- `checkpoint_checksum`; `sha256` is the hexadecimal digest of the UTF-8 text. -/
def checkpointChecksum (state : Json) : Option String :=
  (state.dumps F .compact true).map sha256

/-- The text of the JSON column. -/
def storedText (state : Json) : Option String := state.dumps F .spaced false

end Recovery

/-! ## Which values are written -/

namespace Json
variable (F : FloatTexts) (sep : Separators)

theorem isSome_writeItems {items : List Json}
    (h : ∀ item ∈ items, (writeValue F sep item).isSome = true ↔ item.printable = true) :
    (writeItems F sep items).isSome = true ↔ ∀ item ∈ items, item.printable = true := by
  induction items with
  | nil => simp [writeItems]
  | cons item rest ih =>
    rw [List.forall_mem_cons, ← h item List.mem_cons_self, ← ih fun item hitem => h item (.tail _ hitem), writeItems]
    cases writeValue F sep item <;> simp

theorem isSome_writeMembers {fields : List (String × Json)}
    (h : ∀ field ∈ fields, (writeValue F sep field.2).isSome = true ↔ field.2.printable = true) :
    (writeMembers F sep fields).isSome = true ↔ ∀ field ∈ fields, field.2.printable = true := by
  induction fields with
  | nil => simp [writeMembers]
  | cons field rest ih =>
    obtain ⟨key,value⟩ := field
    rw [List.forall_mem_cons, ← h (key,value) List.mem_cons_self, ← ih fun field hfield => h field (.tail _ hfield),
      writeMembers]
    cases writeValue F sep value <;> simp

theorem isSome_writeValue (x : Json) : (writeValue F sep x).isSome = true ↔ x.printable = true := by
  unfold printable
  induction x using treeInduction with
  | null => exact iff_of_true rfl rfl
  | bool b => exact iff_of_true rfl rfl
  | int n =>
    rw [writeValue, Option.isSome_map]
    exact Iff.rfl
  | float x => exact iff_of_true rfl rfl
  | str s => exact iff_of_true rfl rfl
  | arr items ih =>
    rw [writeValue, Option.isSome_map, isSome_writeItems F sep ih, everywhere_arr]
    exact (and_iff_right rfl).symm
  | obj fields ih =>
    rw [writeValue, Option.isSome_map, isSome_writeMembers F sep ih, everywhere_obj]
    exact (and_iff_right rfl).symm

theorem dumpsItems_iff (items : List Events.PyValue) :
    Events.dumpsItems items = true ↔ ∀ item ∈ items, Events.dumps item = true := by
  induction items with
  | nil => simp [Events.dumpsItems]
  | cons item rest ih => rw [Events.dumpsItems, Bool.and_eq_true, ih, List.forall_mem_cons]

/-- As the bus writes the same value. -/
theorem isSome_writeValue_ofJson (x : Json) :
    (writeValue F sep x).isSome = true ↔ Events.dumps (Events.PyValue.ofJson x) = true := by
  rw [isSome_writeValue]
  unfold printable
  induction x using treeInduction with
  | null => exact iff_of_true rfl rfl
  | bool b => exact iff_of_true rfl rfl
  | int n => exact Iff.rfl
  | float x => exact iff_of_true rfl rfl
  | str s => exact iff_of_true rfl rfl
  | arr items ih =>
    rw [everywhere_arr, Events.PyValue.ofJson, Events.PyValue.ofItems_eq, Events.dumps, dumpsItems_iff,
      List.forall_mem_map]
    exact (and_iff_right rfl).trans (forall₂_congr ih)
  | obj fields ih =>
    rw [everywhere_obj, Events.PyValue.ofJson, Events.PyValue.ofFields_eq, Events.dumps, Events.dumpsFields_iff,
      List.forall_mem_map]
    exact (and_iff_right rfl).trans (forall₂_congr ih)

theorem printable_sortKeys (x : Json) : (sortKeys x).printable = true ↔ x.printable = true :=
  everywhere_sortKeys (fun _ _ => rfl) (fun _ _ _ => rfl) x

theorem state_sortKeys (x : Json) : (sortKeys x).everywhere stateNode = true ↔ x.everywhere stateNode = true :=
  everywhere_sortKeys (p := stateNode) (fun _ _ => rfl) (fun _ _ hperm => decide_eq_decide.mpr hperm.nodup_iff) x

theorem distinctKeys_of_state {x : Json} (hx : x.everywhere stateNode = true) : x.everywhere distinctKeys = true := by
  refine everywhere_mono (fun y hy => ?_) hx
  cases y with
  | float x => cases hy
  | _ => exact hy

theorem exists_writeValue {x : Json} (hx : x.printable = true) : ∃ text, writeValue F sep x = some text :=
  Option.isSome_iff_exists.mp ((isSome_writeValue F sep x).mpr hx)

end Json

/-! ## Canonical and kept by the column -/

namespace Recovery
variable (F : FloatTexts) (sha256 : String → String)

/-- The text under the checksum. -/
def canonicalText (state : Json) : Option String := state.dumps F .compact true

theorem canonicalText_eq {a b : JsonState} {text : String} (ha : canonicalText F a.value = some text)
    (hb : canonicalText F b.value = some text) : a.value.same b.value = true := by
  obtain ⟨left,hleft,rfl⟩ := Option.map_eq_some_iff.mp ha
  obtain ⟨right,hright,heq⟩ := Option.map_eq_some_iff.mp hb
  have hread := Json.loads_write F .compact ((Json.state_sortKeys _).mpr a.state) hleft
  have hread' := Json.loads_write F .compact ((Json.state_sortKeys _).mpr b.state) hright
  rw [heq, hread] at hread'
  exact (Json.same_iff (Json.distinctKeys_of_state a.state) (Json.distinctKeys_of_state b.state)).mpr
    (Option.some.inj hread')

theorem canonicalText_congr {a b : JsonState} (h : a.value.same b.value = true) :
    canonicalText F a.value = canonicalText F b.value := by
  have hsort := (Json.same_iff (Json.distinctKeys_of_state a.state) (Json.distinctKeys_of_state b.state)).mp h
  simp only [canonicalText, Json.dumps, if_true, hsort]

theorem exists_canonicalText {state : Json} (h : state.printable = true) :
    ∃ text, canonicalText F state = some text := by
  obtain ⟨text,htext⟩ := Json.exists_writeValue F .compact ((Json.printable_sortKeys _).mpr h)
  exact ⟨_,congrArg (Option.map String.ofList) htext⟩

/-- The state is stored and read back as it was. -/
theorem loads_storedText (a : JsonState) (h : a.value.printable = true) :
    ∃ text, storedText F a.value = some text ∧ Json.loads F text = some a.value := by
  obtain ⟨text,htext⟩ := Json.exists_writeValue F .spaced h
  exact ⟨_,congrArg (Option.map String.ofList) htext,Json.loads_write F .spaced a.state htext⟩

/-- There is a checksum exactly within the digit limit. -/
theorem isSome_checkpointChecksum (state : Json) :
    (checkpointChecksum F sha256 state).isSome = true ↔ state.printable = true := by
  rw [checkpointChecksum, Json.dumps, Option.isSome_map, Option.isSome_map, if_pos rfl, Json.isSome_writeValue,
    Json.printable_sortKeys]

/-- For integers within the digit limit. The digest tells apart the two texts it is taken of. -/
theorem checkpointChecksum_canonical (a b : JsonState) (ha : a.value.printable = true)
    (hb : b.value.printable = true)
    (hsha : ∀ s t, a.value.dumps F .compact true = some s → b.value.dumps F .compact true = some t →
      sha256 s = sha256 t → s = t) :
    (∃ x y, checkpointChecksum F sha256 a.value = some x ∧ checkpointChecksum F sha256 b.value = some y ∧
      (x = y ↔ a.value.same b.value = true)) ∧
    ∃ text reread, storedText F a.value = some text ∧ Json.loads F text = some reread ∧
      checkpointChecksum F sha256 reread = checkpointChecksum F sha256 a.value := by
  obtain ⟨s,hs⟩ := exists_canonicalText F ha
  obtain ⟨t,ht⟩ := exists_canonicalText F hb
  obtain ⟨text,hstored,hread⟩ := loads_storedText F a ha
  refine ⟨⟨sha256 s,sha256 t,congrArg _ hs,congrArg _ ht,fun h => ?_,fun h => ?_⟩,text,_,hstored,hread,rfl⟩
  · exact canonicalText_eq F hs (hsha s t hs ht h ▸ ht)
  · rw [canonicalText_congr F h, ht] at hs
    rw [Option.some.inj hs]

def sampleTexts : FloatTexts := ⟨fun _ => "0.5",fun _ => .finite (1 / 2)⟩

/-- Two states that differ in a number and a boolean. -/
def leftState : JsonState := ⟨.obj [("b",.int 1),("a",.arr [.bool true,.str "é"])],by decide⟩

def rightState : JsonState := ⟨.obj [("a",.arr [.bool true,.str "é"]),("b",.bool true)],by decide⟩

def leftText : String := "\x7b\"a\":[true,\"\\u00e9\"],\"b\":1\x7d"

def rightText : String := "\x7b\"a\":[true,\"\\u00e9\"],\"b\":true\x7d"

/-- The digests of the two texts. -/
def sampleSha256 (text : String) : String :=
  if text = leftText then "6cc4b18b23e3c218494eca2eb8ba783ea42f4b6eeb42330c5a758886fb8a3fb9"
  else if text = rightText then "c5fb36b6a6033a7d86d7a4682201cc57e50a8c53c6291215dc9b7bd4cb8aac32"
  else ""

theorem checkpointChecksum_canonical_sample :
    (∃ x y, checkpointChecksum sampleTexts sampleSha256 leftState.value = some x ∧
      checkpointChecksum sampleTexts sampleSha256 rightState.value = some y ∧
      (x = y ↔ leftState.value.same rightState.value = true)) ∧
    ∃ text reread, storedText sampleTexts leftState.value = some text ∧
      Json.loads sampleTexts text = some reread ∧
      checkpointChecksum sampleTexts sampleSha256 reread =
        checkpointChecksum sampleTexts sampleSha256 leftState.value := by
  refine checkpointChecksum_canonical sampleTexts sampleSha256 leftState rightState (by decide +kernel)
    (by decide +kernel) fun s t hs ht hdigest => ?_
  have hleft : leftState.value.dumps sampleTexts .compact true = some leftText := by decide +kernel
  have hright : rightState.value.dumps sampleTexts .compact true = some rightText := by decide +kernel
  obtain rfl := Option.some.inj (hleft.symm.trans hs)
  obtain rfl := Option.some.inj (hright.symm.trans ht)
  exact absurd hdigest (by decide)

/-! ## The digit limit -/

/-- One integer under a key. -/
def numberState (n : ℤ) : JsonState := ⟨.obj [("n",.int n)],rfl⟩

theorem same_numberState (n m : ℤ) : (numberState n).value.same (numberState m).value = (n == m) := by
  simp [numberState, Json.same, Json.sameFields]

theorem checkpointChecksum_numberState (F : FloatTexts) (sha256 : String → String) {n : ℤ}
    (h : 10 ^ Events.maxStrDigits ≤ n.natAbs) : checkpointChecksum F sha256 (numberState n).value = none := by
  have htext : Events.intText n = none := if_neg (by omega)
  have hprint : ¬ (numberState n).value.printable = true := by
    rw [Json.printable, numberState, Json.everywhere_obj]
    rintro ⟨-,hall⟩
    have hn : (Events.intText n).isSome = true := hall ("n",.int n) List.mem_cons_self
    rw [htext] at hn
    cases hn
  rw [← isSome_checkpointChecksum F sha256] at hprint
  exact Option.not_isSome_iff_eq_none.mp hprint

theorem le_natAbs_pow (k : ℕ) : 10 ^ k ≤ ((10 : ℤ) ^ k).natAbs ∧ 10 ^ k ≤ (2 * (10 : ℤ) ^ k).natAbs := by
  rw [Int.natAbs_mul, Int.natAbs_pow]
  exact ⟨le_rfl,Nat.le_mul_of_pos_left _ (by decide)⟩

/-- The first integer with a digit too many, and its double. -/
theorem checkpointChecksum_long :
    (¬ ∀ (F : FloatTexts) (sha256 : String → String) (a b : JsonState), Function.Injective sha256 →
      ((∃ x, checkpointChecksum F sha256 a.value = some x ∧ checkpointChecksum F sha256 b.value = some x) ↔
        a.value.same b.value = true)) ∧
    ¬ ∀ (F : FloatTexts) (sha256 : String → String) (a b : JsonState), Function.Injective sha256 →
      (checkpointChecksum F sha256 a.value = checkpointChecksum F sha256 b.value ↔ a.value.same b.value = true) := by
  have hnone := fun F sha256 => checkpointChecksum_numberState F sha256 (le_natAbs_pow Events.maxStrDigits).1
  have hnone' := fun F sha256 => checkpointChecksum_numberState F sha256 (le_natAbs_pow Events.maxStrDigits).2
  constructor
  · intro h
    obtain ⟨x,hx,-⟩ := (h ⟨fun _ => "",fun _ => .nan⟩ id (numberState (10 ^ Events.maxStrDigits))
      (numberState (10 ^ Events.maxStrDigits)) Function.injective_id).mpr (by rw [same_numberState, beq_self_eq_true])
    rw [hnone] at hx
    cases hx
  · intro h
    have hsame := (h ⟨fun _ => "",fun _ => .nan⟩ id (numberState (10 ^ Events.maxStrDigits))
      (numberState (2 * 10 ^ Events.maxStrDigits)) Function.injective_id).mp (by rw [hnone, hnone'])
    rw [same_numberState, beq_iff_eq] at hsame
    have hpos : (0 : ℤ) < 10 ^ Events.maxStrDigits := Int.pow_pos (by decide)
    omega

/-! ## The verdict of the recovery -/

section Verdict
variable {F : FloatTexts} {sha256 : String → String} {cfg : Config}

/-- The checksum of the configuration is that of the source. -/
def Digests (F : FloatTexts) (sha256 : String → String) (cfg : Config) : Prop :=
  ∀ fields digest, checkpointChecksum F sha256 (.obj fields) = some digest → cfg.checkpointChecksum fields = digest

theorem checksum_of_valid {r : RunId} {checkpoint : CheckpointRecord} (h : checkpointIsValid cfg r checkpoint = true) :
    checkpoint.checksum = cfg.checkpointChecksum checkpoint.state := by
  unfold checkpointIsValid at h
  dsimp only at h
  split at h
  · cases h
  split at h
  · cases h
  split at h
  · cases h
  exact beq_iff_eq.mp h

/-- A checkpoint read back from its row is assessed as the one that was created. -/
theorem checkpointIsValid_reread (r : RunId) (checkpoint : CheckpointRecord)
    (hstate : (Json.obj checkpoint.state).everywhere Json.stateNode = true)
    (hprint : (Json.obj checkpoint.state).printable = true) :
    ∃ text fields, storedText F (.obj checkpoint.state) = some text ∧ Json.loads F text = some (.obj fields) ∧
      checkpointIsValid cfg r { checkpoint with state := fields } = checkpointIsValid cfg r checkpoint := by
  obtain ⟨text,htext,hread⟩ := loads_storedText F ⟨.obj checkpoint.state,hstate⟩ hprint
  exact ⟨text,checkpoint.state,htext,hread,rfl⟩

/-- A valid checkpoint holds the state its checksum was taken of. -/
theorem same_of_valid (hcfg : Digests F sha256 cfg) {r : RunId} {checkpoint : CheckpointRecord} {written : JsonObject}
    (hsum : checkpoint.checksum = cfg.checkpointChecksum written)
    (hvalid : checkpointIsValid cfg r checkpoint = true)
    (hwritten : (Json.obj written).everywhere Json.stateNode = true)
    (hstate : (Json.obj checkpoint.state).everywhere Json.stateNode = true)
    (hprint : (Json.obj written).printable = true) (hprint' : (Json.obj checkpoint.state).printable = true)
    (hsha : ∀ s t, canonicalText F (.obj written) = some s → canonicalText F (.obj checkpoint.state) = some t →
      sha256 s = sha256 t → s = t) :
    (Json.obj written).same (.obj checkpoint.state) = true := by
  obtain ⟨s,hs⟩ := exists_canonicalText F hprint
  obtain ⟨t,ht⟩ := exists_canonicalText F hprint'
  have hdigest : sha256 s = sha256 t := by
    rw [← hcfg written (sha256 s) (congrArg _ hs), ← hcfg checkpoint.state (sha256 t) (congrArg _ ht), ← hsum]
    exact checksum_of_valid hvalid
  exact canonicalText_eq F (a := ⟨_,hwritten⟩) (b := ⟨_,hstate⟩) hs (hsha s t hs ht hdigest ▸ ht)

end Verdict

end Recovery

end AgentGraph
