import Mathlib.Data.Nat.Notation

/-! # The methods of `str` that the services use -/
set_option autoImplicit false
namespace AgentGraph

/-- What `str.strip` removes. -/
def isSpace (c : Char) : Bool :=
  let n := c.toNat
  (9 ≤ n && n ≤ 13) || (28 ≤ n && n ≤ 32) || n == 0x85 || n == 0xA0 || n == 0x1680 || (0x2000 ≤ n && n ≤ 0x200A) ||
    n == 0x2028 || n == 0x2029 || n == 0x202F || n == 0x205F || n == 0x3000

def strip (text : String) : String :=
  String.ofList (((text.toList.dropWhile isSpace).reverse.dropWhile isSpace).reverse)

def isAscii (text : String) : Bool := text.toList.all fun c => c.toNat < 128

theorem strip_of_all {text : String} (h : ∀ c ∈ text.toList, isSpace c = false) : strip text = text := by
  have hdrop (cs : List Char) (hcs : ∀ c ∈ cs, isSpace c = false) : cs.dropWhile isSpace = cs := by
    cases cs with
    | nil => rfl
    | cons c cs => exact List.dropWhile_cons_of_neg (by simp [hcs c List.mem_cons_self])
  unfold strip
  rw [hdrop _ h,hdrop _ fun c hc => h c (List.mem_reverse.mp hc),List.reverse_reverse,String.ofList_toList]

end AgentGraph
