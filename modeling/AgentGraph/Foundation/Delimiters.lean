import Mathlib.Data.List.Infix

/-! # Fields threaded through fixed delimiters

A text is built from fields by putting one delimiter between each two neighbours. The
delimiters are fixed and the fields are not escaped, so a field may hold a copy of a
delimiter. A list of fields can be read back exactly when no field, taken together with a
delimiter beside it, contains that delimiter a second time.
-/
set_option autoImplicit false
namespace AgentGraph.Delimiters

variable {α : Type*}

/-- The first field, then every delimiter with the field behind it. -/
def threaded : List α → List (List α × List α) → List α
  | field, [] => field
  | field, (delimiter,next) :: rest => field ++ delimiter ++ threaded next rest

/-- The delimiter behind a field also occurs earlier, inside the field or across its end. -/
def ClosesEarly (delimiter field : List α) : Prop :=
  ∃ k < field.length, delimiter <+: (field ++ delimiter).drop k

/-- The delimiter before a field also occurs later, inside the field or across its start. -/
def OpensLate (delimiter field : List α) : Prop :=
  ∃ k < field.length, delimiter <+: (delimiter ++ field).drop (k + 1)

instance [DecidableEq α] (delimiter field : List α) : Decidable (ClosesEarly delimiter field) :=
  inferInstanceAs (Decidable (∃ k < field.length, delimiter <+: (field ++ delimiter).drop k))

instance [DecidableEq α] (delimiter field : List α) : Decidable (OpensLate delimiter field) :=
  inferInstanceAs (Decidable (∃ k < field.length, delimiter <+: (delimiter ++ field).drop (k + 1)))

/-- No field repeats a delimiter beside it. -/
def Unforged : List α → List (List α × List α) → Prop
  | _, [] => True
  | field, (delimiter,next) :: rest =>
    ¬ ClosesEarly delimiter field ∧ ¬ OpensLate delimiter next ∧ Unforged next rest

instance decidableUnforged [DecidableEq α] :
    (field : List α) → (rest : List (List α × List α)) → Decidable (Unforged field rest)
  | _, [] => inferInstanceAs (Decidable True)
  | field, (delimiter,next) :: rest =>
    have := decidableUnforged next rest
    inferInstanceAs
      (Decidable (¬ ClosesEarly delimiter field ∧ ¬ OpensLate delimiter next ∧ Unforged next rest))

theorem closesEarly_iff {delimiter field : List α} :
    ClosesEarly delimiter field ↔ ∃ front tail, tail ≠ [] ∧ field ++ delimiter = front ++ delimiter ++ tail := by
  constructor
  · rintro ⟨k,hk,tail,htail⟩
    have hlength := congrArg List.length htail
    simp only [List.length_append, List.length_drop] at hlength
    refine ⟨(field ++ delimiter).take k,tail,?_,?_⟩
    · intro hnil
      subst hnil
      simp only [List.length_nil] at hlength
      omega
    · rw [List.append_assoc, htail, List.take_append_drop]
  · rintro ⟨front,tail,hne,h⟩
    have hlength := congrArg List.length h
    have hpos := List.length_pos_of_ne_nil hne
    simp only [List.length_append] at hlength
    refine ⟨front.length,by omega,tail,?_⟩
    rw [h, List.append_assoc, List.drop_left]

theorem opensLate_iff {delimiter field : List α} :
    OpensLate delimiter field ↔ ∃ front tail, front ≠ [] ∧ delimiter ++ field = front ++ delimiter ++ tail := by
  constructor
  · rintro ⟨k,hk,tail,htail⟩
    refine ⟨(delimiter ++ field).take (k + 1),tail,?_,?_⟩
    · intro hnil
      have hlength := congrArg List.length hnil
      simp only [List.length_take, List.length_append, List.length_nil] at hlength
      omega
    · rw [List.append_assoc, htail, List.take_append_drop]
  · rintro ⟨front,tail,hne,h⟩
    have hlength := congrArg List.length h
    have hpos := List.length_pos_of_ne_nil hne
    simp only [List.length_append] at hlength
    refine ⟨front.length - 1,by omega,tail,?_⟩
    rw [Nat.sub_add_cancel hpos, h, List.append_assoc, List.drop_left]

/-- A field that starts behind its delimiter cannot be read as starting further on. -/
theorem Unforged.not_shifted {rest rest' : List (List α × List α)} {field delimiter next next' shift : List α}
    (h : Unforged field ((delimiter,next) :: rest)) (hshift : shift ≠ [])
    (hdelimiters : rest.map Prod.fst = rest'.map Prod.fst) :
    delimiter ++ threaded next rest ≠ shift ++ (delimiter ++ threaded next' rest') := by
  intro heq
  induction rest generalizing field delimiter next next' shift rest' with
  | nil =>
    obtain rfl : rest' = [] := by simpa using hdelimiters.symm
    apply h.2.1
    exact opensLate_iff.mpr ⟨shift,next',hshift,by simpa [threaded] using heq⟩
  | cons pair rest ih =>
    obtain ⟨other,after⟩ := pair
    cases rest' with
    | nil => simp at hdelimiters
    | cons pair' rest' =>
      obtain ⟨other',after'⟩ := pair'
      simp only [List.map_cons, List.cons.injEq] at hdelimiters
      obtain ⟨rfl,hdelimiters⟩ := hdelimiters
      simp only [threaded] at heq
      -- Either the later reading still starts its next field inside this one, or it is shifted again.
      have hends : (delimiter ++ next) ++ (other ++ threaded after rest) =
          (shift ++ delimiter ++ next') ++ (other ++ threaded after' rest') := by
        simpa only [List.append_assoc] using heq
      rcases List.append_eq_append_iff.mp hends with ⟨further,hfurther,htail⟩ | ⟨left,hleft,-⟩
      · by_cases hzero : further = []
        · subst hzero
          apply h.2.1
          exact opensLate_iff.mpr ⟨shift,next',hshift,by simpa using hfurther.symm⟩
        · exact ih h.2.2 hzero hdelimiters htail
      · apply h.2.1
        exact opensLate_iff.mpr ⟨shift,next' ++ left,hshift,by simpa only [List.append_assoc] using hleft⟩

/-- Unforged fields are read back from the text. -/
theorem Unforged.unique {rest rest' : List (List α × List α)} {field field' : List α} (h : Unforged field rest)
    (hdelimiters : rest.map Prod.fst = rest'.map Prod.fst) (heq : threaded field rest = threaded field' rest') :
    field = field' ∧ rest = rest' := by
  induction rest generalizing field field' rest' with
  | nil =>
    obtain rfl : rest' = [] := by simpa using hdelimiters.symm
    exact ⟨by simpa [threaded] using heq,rfl⟩
  | cons pair rest ih =>
    obtain ⟨delimiter,next⟩ := pair
    cases rest' with
    | nil => simp at hdelimiters
    | cons pair' rest' =>
      obtain ⟨delimiter',next'⟩ := pair'
      simp only [List.map_cons, List.cons.injEq] at hdelimiters
      obtain ⟨rfl,hdelimiters⟩ := hdelimiters
      simp only [threaded, List.append_assoc] at heq
      rcases List.append_eq_append_iff.mp heq with ⟨shift,rfl,htail⟩ | ⟨shift,rfl,htail⟩
      · by_cases hzero : shift = []
        · subst hzero
          obtain ⟨rfl,rfl⟩ := ih h.2.2 hdelimiters (List.append_cancel_left htail)
          exact ⟨by simp,rfl⟩
        · exact absurd htail (h.not_shifted hzero hdelimiters)
      · by_cases hzero : shift = []
        · subst hzero
          obtain ⟨rfl,rfl⟩ := ih h.2.2 hdelimiters (List.append_cancel_left htail).symm
          exact ⟨by simp,rfl⟩
        · exfalso
          apply h.1
          -- The other reading ends its first field earlier, at a copy of the delimiter.
          have hcloses : delimiter <+: shift ++ delimiter :=
            List.prefix_of_prefix_length_le ⟨threaded next' rest',htail⟩
              ⟨threaded next rest,by rw [List.append_assoc]⟩ (by simp)
          obtain ⟨tail,hcopy⟩ := hcloses
          have hlength := congrArg List.length hcopy
          simp only [List.length_append] at hlength
          have hpos := List.length_pos_of_ne_nil hzero
          refine closesEarly_iff.mpr ⟨field',tail,List.ne_nil_of_length_pos (by omega),?_⟩
          simp only [List.append_assoc, hcopy]

theorem threaded_append (front field : List α) (rest : List (List α × List α)) :
    threaded (front ++ field) rest = front ++ threaded field rest := by
  cases rest with
  | nil => simp only [threaded]
  | cons pair rest => simp only [threaded, List.append_assoc]

/-- A forged delimiter gives a second reading of the same text. -/
theorem exists_other_reading {rest : List (List α × List α)} {field : List α} (h : ¬ Unforged field rest) :
    ∃ field' rest', rest'.map Prod.fst = rest.map Prod.fst ∧ (field',rest') ≠ (field,rest) ∧
      threaded field' rest' = threaded field rest := by
  induction rest generalizing field with
  | nil => exact absurd trivial h
  | cons pair rest ih =>
    obtain ⟨delimiter,next⟩ := pair
    by_cases hclose : ClosesEarly delimiter field
    · obtain ⟨front,tail,hne,hcopy⟩ := closesEarly_iff.mp hclose
      refine ⟨front,(delimiter,tail ++ next) :: rest,by simp,?_,?_⟩
      · intro hsame
        have hpos := List.length_pos_of_ne_nil hne
        have hlength := congrArg (fun reading => (reading.1 ++ delimiter).length) hsame
        simp only [hcopy, List.length_append] at hlength
        omega
      · simp only [threaded, threaded_append, ← List.append_assoc, hcopy]
    · by_cases hopen : OpensLate delimiter next
      · obtain ⟨front,tail,hne,hcopy⟩ := opensLate_iff.mp hopen
        refine ⟨field ++ front,(delimiter,tail) :: rest,by simp,?_,?_⟩
        · intro hsame
          exact hne (by simpa using congrArg Prod.fst hsame)
        · have htail : delimiter ++ threaded next rest = front ++ (delimiter ++ threaded tail rest) := by
            rw [← threaded_append, ← threaded_append, ← threaded_append, hcopy, List.append_assoc]
          simp only [threaded, List.append_assoc, htail]
      · have hrest : ¬ Unforged next rest := fun hrest => h ⟨hclose,hopen,hrest⟩
        obtain ⟨next',rest',hdelimiters,hother,hsame⟩ := ih hrest
        refine ⟨field,(delimiter,next') :: rest',by simp [hdelimiters],?_,by simp only [threaded, hsame]⟩
        intro heq
        apply hother
        simpa using heq

/-- The fields are the only ones that give their text exactly when none forges a delimiter. -/
theorem unforged_iff_unique {field : List α} {rest : List (List α × List α)} :
    Unforged field rest ↔ ∀ field' rest', rest'.map Prod.fst = rest.map Prod.fst →
      (field',rest') ≠ (field,rest) → threaded field' rest' ≠ threaded field rest := by
  constructor
  · intro h field' rest' hdelimiters hother heq
    obtain ⟨rfl,rfl⟩ := h.unique hdelimiters.symm heq.symm
    exact hother rfl
  · intro h
    by_contra hforged
    obtain ⟨field',rest',hdelimiters,hother,heq⟩ := exists_other_reading hforged
    exact h field' rest' hdelimiters hother heq

end AgentGraph.Delimiters
