import Mathlib.Data.Nat.Notation
import Mathlib.Data.List.Basic

/-! # Base64

The base64 encoding of RFC 4648: three bytes regroup as four sextets, a shorter last
group as two or three, and the text is padded to a multiple of four characters.
-/
set_option autoImplicit false
namespace Base64

/-- The character of a sextet. -/
def symbol (n : ℕ) : Char :=
  if n < 26 then Char.ofNat (n + 65)
  else if n < 52 then Char.ofNat (n - 26 + 97)
  else if n < 62 then Char.ofNat (n - 52 + 48)
  else if n = 62 then '+'
  else '/'

def value? (c : Char) : Option ℕ :=
  if 65 ≤ c.toNat ∧ c.toNat ≤ 90 then some (c.toNat - 65)
  else if 97 ≤ c.toNat ∧ c.toNat ≤ 122 then some (c.toNat - 97 + 26)
  else if 48 ≤ c.toNat ∧ c.toNat ≤ 57 then some (c.toNat - 48 + 52)
  else if c = '+' then some 62
  else if c = '/' then some 63
  else none

/-- The sextets of a byte string, the last one filled with zero bits. -/
def sextets : List UInt8 → List ℕ
  | [] => []
  | [a] => [a.toNat / 4,a.toNat % 4 * 16]
  | [a,b] => [a.toNat / 4,a.toNat % 4 * 16 + b.toNat / 16,b.toNat % 16 * 4]
  | a :: b :: c :: rest =>
    a.toNat / 4 :: (a.toNat % 4 * 16 + b.toNat / 16) :: (b.toNat % 16 * 4 + c.toNat / 64) :: c.toNat % 64 ::
      sextets rest

/-- The bytes of sextets, whose last bits that fill no byte are dropped. -/
def bytes : List ℕ → Option (List UInt8)
  | [] => some []
  | [_] => none
  | [p,q] => some [UInt8.ofNat (p * 4 + q / 16)]
  | [p,q,r] => some [UInt8.ofNat (p * 4 + q / 16),UInt8.ofNat (q % 16 * 16 + r / 4)]
  | p :: q :: r :: s :: rest => (bytes rest).map fun tail =>
    UInt8.ofNat (p * 4 + q / 16) :: UInt8.ofNat (q % 16 * 16 + r / 4) :: UInt8.ofNat (r % 4 * 64 + s) :: tail

/-- How many pad characters the text of `n` bytes ends with. -/
def padding (n : ℕ) : ℕ := (3 - n % 3) % 3

def unpadded (data : List UInt8) : List Char := (sextets data).map symbol

def encode (data : List UInt8) : List Char := unpadded data ++ List.replicate (padding data.length) '='

/-- The character of a sextet in the URL and filename safe alphabet. -/
def urlSymbol (n : ℕ) : Char := if n = 62 then '-' else if n = 63 then '_' else symbol n

/-- The base64url text without padding. -/
def urlUnpadded (data : List UInt8) : List Char := (sextets data).map urlSymbol

theorem value?_symbol {n : ℕ} (h : n < 64) : value? (symbol n) = some n := by
  have hall : ∀ n < 64, value? (symbol n) = some n := by decide
  exact hall n h

theorem sextets_lt (data : List UInt8) : ∀ n ∈ sextets data, n < 64 := by
  induction data using sextets.induct with
  | case1 => simp [sextets]
  | case2 a =>
    have ha := a.toNat_lt
    simp only [sextets, List.mem_cons, List.not_mem_nil, or_false]
    omega
  | case3 a b =>
    have ha := a.toNat_lt
    have hb := b.toNat_lt
    simp only [sextets, List.mem_cons, List.not_mem_nil, or_false]
    omega
  | case4 a b c rest ih =>
    have ha := a.toNat_lt
    have hb := b.toNat_lt
    have hc := c.toNat_lt
    simp only [sextets, List.mem_cons]
    rintro n (hn | hn | hn | hn | hn)
    · omega
    · omega
    · omega
    · omega
    · exact ih n hn

/-- A property of the alphabet is one of every text. -/
theorem forall_unpadded {p : Char → Prop} (h : ∀ n < 64, p (symbol n)) (data : List UInt8) :
    ∀ c ∈ unpadded data, p c := by
  intro c hc
  obtain ⟨n,hn,rfl⟩ := List.mem_map.mp hc
  exact h n (sextets_lt data n hn)

theorem forall_urlUnpadded {p : Char → Prop} (h : ∀ n < 64, p (urlSymbol n)) (data : List UInt8) :
    ∀ c ∈ urlUnpadded data, p c := by
  intro c hc
  obtain ⟨n,hn,rfl⟩ := List.mem_map.mp hc
  exact h n (sextets_lt data n hn)

theorem forall_encode {p : Char → Prop} (h : ∀ n < 64, p (symbol n)) (hpad : p '=') (data : List UInt8) :
    ∀ c ∈ encode data, p c := by
  intro c hc
  rcases List.mem_append.mp hc with hc | hc
  · exact forall_unpadded h data c hc
  · rw [List.eq_of_mem_replicate hc]
    exact hpad

theorem ofNat_halves (a : UInt8) {n : ℕ} (h : n = a.toNat) : UInt8.ofNat n = a := by rw [h, UInt8.ofNat_toNat]

/-- The last group has one, two or three bytes. -/
theorem bytes_sextets (data : List UInt8) : bytes (sextets data) = some data := by
  induction data using sextets.induct with
  | case1 => rfl
  | case2 a =>
    have ha := ofNat_halves a (n := a.toNat / 4 * 4 + a.toNat % 4 * 16 / 16) (by omega)
    simp only [sextets, bytes, ha]
  | case3 a b =>
    have hb := b.toNat_lt
    have h₁ := ofNat_halves a (n := a.toNat / 4 * 4 + (a.toNat % 4 * 16 + b.toNat / 16) / 16) (by omega)
    have h₂ := ofNat_halves b
      (n := (a.toNat % 4 * 16 + b.toNat / 16) % 16 * 16 + b.toNat % 16 * 4 / 4) (by omega)
    simp only [sextets, bytes, h₁, h₂]
  | case4 a b c rest ih =>
    have hb := b.toNat_lt
    have hc := c.toNat_lt
    have h₁ := ofNat_halves a (n := a.toNat / 4 * 4 + (a.toNat % 4 * 16 + b.toNat / 16) / 16) (by omega)
    have h₂ := ofNat_halves b
      (n := (a.toNat % 4 * 16 + b.toNat / 16) % 16 * 16 + (b.toNat % 16 * 4 + c.toNat / 64) / 4) (by omega)
    have h₃ := ofNat_halves c (n := (b.toNat % 16 * 4 + c.toNat / 64) % 4 * 64 + c.toNat % 64) (by omega)
    simp only [sextets, bytes, ih, Option.map_some, h₁, h₂, h₃]

theorem length_sextets (data : List UInt8) : (sextets data).length = (data.length * 4 + 2) / 3 := by
  induction data using sextets.induct with
  | case1 => rfl
  | case2 a => simp [sextets]
  | case3 a b => simp [sextets]
  | case4 a b c rest ih =>
    simp only [sextets, List.length_cons, ih]
    omega

/-- The pad characters fill the last group of four. -/
theorem padding_eq (data : List UInt8) : padding data.length = (4 - (sextets data).length % 4) % 4 := by
  rw [length_sextets, padding]
  have hr : data.length % 3 = 0 ∨ data.length % 3 = 1 ∨ data.length % 3 = 2 := by omega
  rcases hr with hr | hr | hr <;> rw [hr] <;> omega

example : encode [102,111,111,98] = ['Z','m','9','v','Y','g','=','='] := by decide

end Base64
