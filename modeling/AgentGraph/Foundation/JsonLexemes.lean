import Mathlib.Data.Nat.Notation
import Mathlib.Data.Int.Notation
import Mathlib.Data.List.Basic

/-! # The lexemes of JSON texts

Strings escaped to ASCII and decimal numerals, and the scanners that read them back. A
scanner returns what it has read and the text behind it.
-/
set_option autoImplicit false
namespace JsonText

/-! ## Strings -/

/-- The UTF-16 code units of a character. -/
def units (c : Char) : List ℕ :=
  if c.toNat < 0x10000 then [c.toNat]
  else [0xd800 + (c.toNat - 0x10000) / 0x400,0xdc00 + (c.toNat - 0x10000) % 0x400]

def unicodeEscape (n : ℕ) : List Char :=
  ['\\','u',Nat.digitChar (n / 4096),Nat.digitChar (n / 256 % 16),Nat.digitChar (n / 16 % 16),Nat.digitChar (n % 16)]

/-- The letter behind the backslash of a short escape. -/
def shortEscape? (n : ℕ) : Option Char :=
  if n = 34 then some '"'
  else if n = 92 then some '\\'
  else if n = 8 then some 'b'
  else if n = 12 then some 'f'
  else if n = 10 then some 'n'
  else if n = 13 then some 'r'
  else if n = 9 then some 't'
  else none

def escapeChar (c : Char) : List Char :=
  match shortEscape? c.toNat with
  | some letter => ['\\',letter]
  | none => if 32 ≤ c.toNat ∧ c.toNat ≤ 126 then [c] else (units c).flatMap unicodeEscape

def escape (text : List Char) : List Char := text.flatMap escapeChar

def hexValue? (c : Char) : Option ℕ :=
  if 48 ≤ c.toNat ∧ c.toNat ≤ 57 then some (c.toNat - 48)
  else if 97 ≤ c.toNat ∧ c.toNat ≤ 102 then some (c.toNat - 87)
  else if 65 ≤ c.toNat ∧ c.toNat ≤ 70 then some (c.toNat - 55)
  else none

def hexUnit? (a b c d : Char) : Option ℕ := do
  let a ← hexValue? a
  let b ← hexValue? b
  let c ← hexValue? c
  let d ← hexValue? d
  some (a * 4096 + b * 256 + c * 16 + d)

/-- The character of a short escape; a solidus may be escaped too. -/
def unescape? (c : Char) : Option ℕ :=
  if c = '"' then some 34
  else if c = '\\' then some 92
  else if c = '/' then some 47
  else if c = 'b' then some 8
  else if c = 'f' then some 12
  else if c = 'n' then some 10
  else if c = 'r' then some 13
  else if c = 't' then some 9
  else none

/-- The characters and escaped code units of a string, from behind its opening quote. A control
character is refused. -/
def scanUnits : List Char → Option (List ℕ × List Char)
  | [] => none
  | '\\' :: 'u' :: a :: b :: c :: d :: rest =>
    (hexUnit? a b c d).bind fun n => (scanUnits rest).map fun read => (n :: read.1,read.2)
  | '\\' :: c :: rest => (unescape? c).bind fun n => (scanUnits rest).map fun read => (n :: read.1,read.2)
  | c :: rest =>
    if c = '"' then some ([],rest)
    else if c.toNat < 32 then none
    else (scanUnits rest).map fun read => (c.toNat :: read.1,read.2)

def isHigh (n : ℕ) : Bool := decide (0xd800 ≤ n ∧ n < 0xdc00)

def isLow (n : ℕ) : Bool := decide (0xdc00 ≤ n ∧ n < 0xe000)

/-- Surrogate pairs are joined; a lone surrogate is no character. -/
def joinUnits : List ℕ → Option (List Char)
  | [] => some []
  | [n] => if isHigh n || isLow n then none else some [Char.ofNat n]
  | n :: m :: rest =>
    if isHigh n && isLow m then
      (joinUnits rest).map fun text => Char.ofNat (0x10000 + (n - 0xd800) * 0x400 + (m - 0xdc00)) :: text
    else if isHigh n || isLow n then none
    else (joinUnits (m :: rest)).map fun text => Char.ofNat n :: text

def scanString (text : List Char) : Option (List Char × List Char) :=
  (scanUnits text).bind fun read => (joinUnits read.1).map fun string => (string,read.2)

theorem hexValue?_digitChar {n : ℕ} (h : n < 16) : hexValue? (Nat.digitChar n) = some n := by
  have hall : ∀ n < 16, hexValue? (Nat.digitChar n) = some n := by decide
  exact hall n h

theorem scanUnits_unicodeEscape {n : ℕ} (h : n < 0x10000) (rest : List Char) :
    scanUnits (unicodeEscape n ++ rest) = (scanUnits rest).map fun read => (n :: read.1,read.2) := by
  have hn : n / 4096 * 4096 + n / 256 % 16 * 256 + n / 16 % 16 * 16 + n % 16 = n := by omega
  have hunit : hexUnit? (Nat.digitChar (n / 4096)) (Nat.digitChar (n / 256 % 16)) (Nat.digitChar (n / 16 % 16))
      (Nat.digitChar (n % 16)) = some n := by
    simp only [hexUnit?, hexValue?_digitChar (n := n / 4096) (by omega),
      hexValue?_digitChar (n := n / 256 % 16) (by omega), hexValue?_digitChar (n := n / 16 % 16) (by omega),
      hexValue?_digitChar (n := n % 16) (by omega), Option.bind_eq_bind, Option.bind_some, hn]
  simp only [unicodeEscape, List.cons_append, List.nil_append, scanUnits, hunit, Option.bind_some]

theorem unescape?_of_short {n : ℕ} {letter : Char} (h : shortEscape? n = some letter) :
    letter ≠ 'u' ∧ unescape? letter = some n := by
  unfold shortEscape? at h
  split_ifs at h with h₁ h₂ h₃ h₄ h₅ h₆ h₇ <;> cases h <;> subst n <;> decide

theorem scanUnits_plain {c : Char} (hquote : c ≠ '"') (hslash : c ≠ '\\') (hcontrol : 32 ≤ c.toNat) (rest : List Char) :
    scanUnits (c :: rest) = (scanUnits rest).map fun read => (c.toNat :: read.1,read.2) := by
  rw [scanUnits.eq_def]
  split
  next h => cases h
  next h => exact absurd (List.cons.inj h).1 hslash
  next h => exact absurd (List.cons.inj h).1 hslash
  next h =>
    obtain ⟨rfl,rfl⟩ := List.cons.inj h
    rw [if_neg hquote, if_neg (by omega)]

theorem scanUnits_short {letter : Char} {n : ℕ} (hu : letter ≠ 'u') (h : unescape? letter = some n)
    (rest : List Char) :
    scanUnits ('\\' :: letter :: rest) = (scanUnits rest).map fun read => (n :: read.1,read.2) := by
  rw [scanUnits.eq_def]
  split
  next h => cases h
  next h => exact absurd (List.cons.inj (List.cons.inj h).2).1 hu
  next h' =>
    obtain ⟨rfl,rfl⟩ := List.cons.inj (List.cons.inj h').2
    rw [h, Option.bind_some]
  next hne h' => exact absurd (List.cons.inj h').2.symm (hne letter rest (List.cons.inj h').1.symm)

/-- A character is no surrogate. -/
theorem toNat_scalar (c : Char) : c.toNat < 0xd800 ∨ 0xdfff < c.toNat ∧ c.toNat < 0x110000 := c.valid

theorem units_lt (c : Char) : ∀ n ∈ units c, n < 0x10000 := by
  have hc := toNat_scalar c
  unfold units
  split
  · simpa using ‹_›
  · simp only [List.mem_cons, List.not_mem_nil, or_false]
    omega

theorem scanUnits_unicodeEscapes {ns : List ℕ} (h : ∀ n ∈ ns, n < 0x10000) (rest : List Char) :
    scanUnits (ns.flatMap unicodeEscape ++ rest) = (scanUnits rest).map fun read => (ns ++ read.1,read.2) := by
  induction ns with
  | nil => exact (congrFun Option.map_id _).symm
  | cons n ns ih =>
    rw [List.flatMap_cons, List.append_assoc, scanUnits_unicodeEscape (h n (by simp)),
      ih fun m hm => h m (by simp [hm]), Option.map_map]
    rfl

theorem scanUnits_escapeChar (c : Char) (rest : List Char) :
    scanUnits (escapeChar c ++ rest) = (scanUnits rest).map fun read => (units c ++ read.1,read.2) := by
  unfold escapeChar
  cases hshort : shortEscape? c.toNat with
  | some letter =>
    obtain ⟨hu,hread⟩ := unescape?_of_short hshort
    have hunits : units c = [c.toNat] := by
      rw [units, if_pos]
      unfold shortEscape? at hshort
      split_ifs at hshort <;> omega
    rw [hunits]
    exact scanUnits_short hu hread rest
  | none =>
    dsimp only
    split
    next hplain =>
      have hunits : units c = [c.toNat] := by rw [units, if_pos (by omega)]
      rw [hunits]
      refine scanUnits_plain ?_ ?_ hplain.1 rest
      · rintro rfl
        cases hshort
      · rintro rfl
        cases hshort
    · exact scanUnits_unicodeEscapes (units_lt c) rest

theorem scanUnits_escape (text rest : List Char) :
    scanUnits (escape text ++ '"' :: rest) = some (text.flatMap units,rest) := by
  induction text with
  | nil => rfl
  | cons c text ih => rw [escape, List.flatMap_cons, List.append_assoc, scanUnits_escapeChar, ← escape, ih]; rfl

theorem joinUnits_units (c : Char) (ns : List ℕ) :
    joinUnits (units c ++ ns) = (joinUnits ns).map fun text => c :: text := by
  have hc := toNat_scalar c
  unfold units
  split
  next hbasic =>
    have hhigh : isHigh c.toNat = false := decide_eq_false (by omega)
    have hlow : isLow c.toNat = false := decide_eq_false (by omega)
    cases ns <;> simp [joinUnits, hhigh, hlow, Char.ofNat_toNat]
  next hastral =>
    have hhigh : isHigh (0xd800 + (c.toNat - 0x10000) / 0x400) = true := decide_eq_true (by omega)
    have hlow : isLow (0xdc00 + (c.toNat - 0x10000) % 0x400) = true := decide_eq_true (by omega)
    have hjoin : 0x10000 + (0xd800 + (c.toNat - 0x10000) / 0x400 - 0xd800) * 0x400 +
        (0xdc00 + (c.toNat - 0x10000) % 0x400 - 0xdc00) = c.toNat := by omega
    simp only [List.cons_append, List.nil_append, joinUnits, hhigh, hlow, Bool.and_self, if_true, hjoin,
      Char.ofNat_toNat]

theorem joinUnits_flatMap (text : List Char) : joinUnits (text.flatMap units) = some text := by
  induction text with
  | nil => rfl
  | cons c text ih => rw [List.flatMap_cons, joinUnits_units, ih, Option.map_some]

/-- An escaped string is read back, whatever follows its closing quote. -/
theorem scanString_escape (text rest : List Char) :
    scanString (escape text ++ '"' :: rest) = some (text,rest) := by
  rw [scanString, scanUnits_escape, Option.bind_some, joinUnits_flatMap, Option.map_some]

/-! ## Numerals -/

/-- A number as the grammar splits it: an integer, or the literal of a float. -/
inductive Number
  | int (n : ℤ)
  | float (literal : List Char)
deriving DecidableEq

def numeral (n : ℤ) : List Char := if n < 0 then '-' :: Nat.toDigits 10 n.natAbs else Nat.toDigits 10 n.natAbs

/-- `0`, or digits that do not start with it. -/
def scanDigits : List Char → Option (List Char × List Char)
  | [] => none
  | c :: rest =>
    if c = '0' then some (['0'],rest)
    else if c.isDigit then some (c :: rest.takeWhile Char.isDigit,rest.dropWhile Char.isDigit)
    else none

def scanFraction (text : List Char) : List Char × List Char :=
  match text with
  | c :: d :: rest =>
    if c = '.' && d.isDigit then (c :: d :: rest.takeWhile Char.isDigit,rest.dropWhile Char.isDigit) else ([],text)
  | _ => ([],text)

/-- The sign of an exponent. -/
def scanSign (text : List Char) : List Char × List Char :=
  match text with
  | c :: rest => if c = '+' || c = '-' then ([c],rest) else ([],text)
  | [] => ([],text)

def scanExponent (text : List Char) : List Char × List Char :=
  match text with
  | c :: rest =>
    if c = 'e' || c = 'E' then
      let signed := scanSign rest
      let digits := signed.2.takeWhile Char.isDigit
      if digits.isEmpty then ([],text) else (c :: (signed.1 ++ digits),signed.2.dropWhile Char.isDigit)
    else ([],text)
  | [] => ([],text)

/-- A number behind its sign. -/
def scanMagnitude (negative : Bool) (text : List Char) : Option (Number × List Char) :=
  (scanDigits text).map fun whole =>
    let fraction := scanFraction whole.2
    let exponent := scanExponent fraction.2
    if fraction.1.isEmpty && exponent.1.isEmpty then
      let magnitude : ℤ := Nat.ofDigitChars 10 whole.1 0
      (.int (if negative then -magnitude else magnitude),exponent.2)
    else (.float ((if negative then ['-'] else []) ++ whole.1 ++ fraction.1 ++ exponent.1),exponent.2)

def scanNumber : List Char → Option (Number × List Char)
  | [] => none
  | c :: rest => if c = '-' then scanMagnitude true rest else scanMagnitude false (c :: rest)

/-- The text does not go on with a number. -/
def EndsNumber (text : List Char) : Prop := ∀ c ∈ text.head?, c.isDigit = false ∧ c ≠ '.' ∧ c ≠ 'e' ∧ c ≠ 'E'

theorem toDigits_head {n : ℕ} (h : 0 < n) : ∃ c digits, Nat.toDigits 10 n = c :: digits ∧ c ≠ '0' := by
  induction n using Nat.strongRecOn with
  | _ n ih =>
    by_cases hn : n < 10
    · have hall : ∀ m < 10, 0 < m → Nat.digitChar m ≠ '0' := by decide
      exact ⟨Nat.digitChar n,[],Nat.toDigits_of_lt_base hn,hall n hn h⟩
    · obtain ⟨c,digits,hdigits,hc⟩ := ih (n / 10) (by omega) (by omega)
      rw [Nat.toDigits_of_base_le (by decide) (by omega), hdigits]
      exact ⟨c,_,rfl,hc⟩

theorem isDigit_toDigits (n : ℕ) : ∀ c ∈ Nat.toDigits 10 n, c.isDigit = true :=
  fun _ hc => Nat.isDigit_of_mem_toDigits (by decide) (by decide) hc

theorem span_digits {digits rest : List Char} (hdigits : ∀ c ∈ digits, c.isDigit = true) (hrest : EndsNumber rest) :
    (digits ++ rest).takeWhile Char.isDigit = digits ∧ (digits ++ rest).dropWhile Char.isDigit = rest := by
  rw [List.takeWhile_append_of_pos hdigits, List.dropWhile_append_of_pos hdigits]
  cases rest with
  | nil => simp
  | cons c rest =>
    have hc : c.isDigit = false := (hrest c rfl).1
    rw [List.takeWhile_cons_of_neg (by simp [hc]), List.dropWhile_cons_of_neg (by simp [hc]), List.append_nil]
    exact ⟨rfl,rfl⟩

theorem scanDigits_toDigits (n : ℕ) {rest : List Char} (hrest : EndsNumber rest) :
    scanDigits (Nat.toDigits 10 n ++ rest) = some (Nat.toDigits 10 n,rest) := by
  rcases Nat.eq_zero_or_pos n with rfl | hn
  · rfl
  · obtain ⟨c,digits,hdigits,hc⟩ := toDigits_head hn
    have hall := isDigit_toDigits n
    rw [hdigits] at hall ⊢
    obtain ⟨htake,hdrop⟩ := span_digits (fun d hd => hall d (.tail _ hd)) hrest
    rw [List.cons_append, scanDigits, if_neg hc, if_pos (hall c List.mem_cons_self), htake, hdrop]

theorem scanFraction_ends {rest : List Char} (hrest : EndsNumber rest) : scanFraction rest = ([],rest) := by
  unfold scanFraction
  split
  next c d rest =>
    rw [if_neg]
    simp [(hrest c rfl).2.1]
  · rfl

theorem scanExponent_ends {rest : List Char} (hrest : EndsNumber rest) : scanExponent rest = ([],rest) := by
  unfold scanExponent
  split
  next c rest =>
    rw [if_neg]
    simp [(hrest c rfl).2.2]
  · rfl

theorem scanMagnitude_toDigits (negative : Bool) (n : ℕ) {rest : List Char} (hrest : EndsNumber rest) :
    scanMagnitude negative (Nat.toDigits 10 n ++ rest) = some (.int (if negative then -n else n),rest) := by
  simp only [scanMagnitude, scanDigits_toDigits n hrest, Option.map_some, scanFraction_ends hrest,
    scanExponent_ends hrest, List.isEmpty_nil, Bool.and_self, if_true,
    Nat.ofDigitChars_toDigits (b := 10) (by decide) (by decide)]

/-- A numeral is read back where the text behind it does not go on with it. -/
theorem scanNumber_numeral (n : ℤ) {rest : List Char} (hrest : EndsNumber rest) :
    scanNumber (numeral n ++ rest) = some (.int n,rest) := by
  unfold numeral
  split
  next hneg =>
    have hn : -(n.natAbs : ℤ) = n := by omega
    rw [List.cons_append, scanNumber, if_pos rfl, scanMagnitude_toDigits true n.natAbs hrest, if_pos rfl, hn]
  next hpos =>
    have hn : (n.natAbs : ℤ) = n := by omega
    have hread := scanMagnitude_toDigits false n.natAbs hrest
    obtain ⟨c,digits,hdigits⟩ := List.exists_cons_of_ne_nil (Nat.toDigits_ne_nil (n := n.natAbs) (b := 10))
    have hc : c ≠ '-' := by
      have hdigit := isDigit_toDigits n.natAbs c (hdigits ▸ List.mem_cons_self)
      rintro rfl
      cases hdigit
    rw [hdigits, List.cons_append] at hread ⊢
    rw [scanNumber, if_neg hc, hread, if_neg (by decide), hn]

/-! ## What a scanner leaves is shorter -/

theorem scanUnits_lt {text rest : List Char} {ns : List ℕ} (h : scanUnits text = some (ns,rest)) :
    rest.length < text.length := by
  fun_induction scanUnits text generalizing ns with
  | case1 => cases h
  | case2 a b c d more ih =>
    obtain ⟨n,-,h⟩ := Option.bind_eq_some_iff.mp h
    obtain ⟨⟨ms,after⟩,hread,heq⟩ := Option.map_eq_some_iff.mp h
    cases heq
    have hlt : after.length < more.length := ih hread
    simp only [List.length_cons]
    omega
  | case3 c more hne ih =>
    obtain ⟨n,-,h⟩ := Option.bind_eq_some_iff.mp h
    obtain ⟨⟨ms,after⟩,hread,heq⟩ := Option.map_eq_some_iff.mp h
    cases heq
    have hlt : after.length < more.length := ih hread
    simp only [List.length_cons]
    omega
  | case4 c more =>
    cases h
    simp
  | case5 => cases h
  | case6 c more hquote hcontrol hne hslash ih =>
    obtain ⟨⟨ms,after⟩,hread,heq⟩ := Option.map_eq_some_iff.mp h
    cases heq
    have hlt : after.length < more.length := ih hread
    simp only [List.length_cons]
    omega

theorem scanString_lt {text rest string : List Char} (h : scanString text = some (string,rest)) :
    rest.length < text.length := by
  obtain ⟨⟨ns,after⟩,hread,h⟩ := Option.bind_eq_some_iff.mp h
  obtain ⟨joined,-,heq⟩ := Option.map_eq_some_iff.mp h
  cases heq
  exact scanUnits_lt hread

theorem scanDigits_lt {text digits rest : List Char} (h : scanDigits text = some (digits,rest)) :
    rest.length < text.length := by
  cases text with
  | nil => cases h
  | cons c text =>
    have hle : (text.dropWhile Char.isDigit).length ≤ text.length := (List.dropWhile_suffix _).length_le
    rw [scanDigits] at h
    split_ifs at h with h₁ h₂
    · cases h
      simp
    · cases h
      rw [List.length_cons]
      omega

theorem scanFraction_le (text : List Char) : (scanFraction text).2.length ≤ text.length := by
  unfold scanFraction
  split
  next c d rest =>
    have hle : (rest.dropWhile Char.isDigit).length ≤ rest.length := (List.dropWhile_suffix _).length_le
    split
    · simp only [List.length_cons]
      omega
    · exact Nat.le_refl _
  · exact Nat.le_refl _

theorem scanSign_le (text : List Char) : (scanSign text).2.length ≤ text.length := by
  unfold scanSign
  split
  · split
    · simp
    · exact Nat.le_refl _
  · exact Nat.le_refl _

theorem scanExponent_le (text : List Char) : (scanExponent text).2.length ≤ text.length := by
  unfold scanExponent
  split
  next c rest =>
    have hsign := scanSign_le rest
    have hle : ((scanSign rest).2.dropWhile Char.isDigit).length ≤ (scanSign rest).2.length :=
      (List.dropWhile_suffix _).length_le
    split
    · dsimp only
      split
      · exact Nat.le_refl _
      · simp only [List.length_cons]
        omega
    · exact Nat.le_refl _
  · exact Nat.le_refl _

theorem scanMagnitude_lt {negative : Bool} {text rest : List Char} {number : Number}
    (h : scanMagnitude negative text = some (number,rest)) : rest.length < text.length := by
  obtain ⟨⟨digits,after⟩,hdigits,h⟩ := Option.map_eq_some_iff.mp h
  have hlt := scanDigits_lt hdigits
  have hfraction := scanFraction_le after
  have hexponent := scanExponent_le (scanFraction after).2
  dsimp only at h
  split at h <;> obtain ⟨-,rfl⟩ := Prod.mk.inj h <;> omega

theorem scanNumber_lt {text rest : List Char} {number : Number} (h : scanNumber text = some (number,rest)) :
    rest.length < text.length := by
  cases text with
  | nil => cases h
  | cons c text =>
    rw [scanNumber] at h
    split at h
    · exact Nat.lt_trans (scanMagnitude_lt h) (by simp)
    · exact scanMagnitude_lt h

end JsonText
