import ApiSuite.Binary64.Decimal
import Mathlib.Data.List.Basic

/-!
# The texts of numbers

A whole number is told by its digits and its sign. And whatever the style in which a number is
written, it has no characters but digits, signs, a point and the letter before an exponent.
-/

namespace ApiSuite.Text

/-- What is said of the characters of a text is decided by going through the text, and not through all
characters there are, which are finitely many as well. -/
instance (priority := 2000) decidableForallMem (text : List Char) (p : Char → Prop) [DecidablePred p] :
    Decidable (∀ c ∈ text, p c) :=
  List.decidableBAll p text

variable {c : Char}

/-! ### Whole numbers -/

def isNumberChar (c : Char) : Bool :=
  c.isDigit || c == '-'

theorem toList_toString_ofNat (n : Nat) : (toString (Int.ofNat n)).toList = Nat.toDigits 10 n :=
  Nat.toList_repr

theorem toList_toString_negSucc (n : Nat) :
    (toString (Int.negSucc n)).toList = '-' :: Nat.toDigits 10 (n + 1) := by
  rw [Int.toString_eq_repr, Int.repr, String.toList_append, Nat.toList_repr]
  rfl

theorem isDigit_of_mem {n : Nat} (h : c ∈ Nat.toDigits 10 n) : c.isDigit = true :=
  Nat.isDigit_of_mem_toDigits (by omega) (by omega) h

theorem isDigit_of_mem_toString {n : Nat} (h : c ∈ (toString n).toList) : c.isDigit = true :=
  isDigit_of_mem (Nat.toList_repr ▸ h)

theorem isNumberChar_of_mem {n : Int} (h : c ∈ (toString n).toList) : isNumberChar c = true := by
  cases n with
  | ofNat n =>
      rw [toList_toString_ofNat] at h
      simp [isNumberChar, isDigit_of_mem h]
  | negSucc n =>
      rw [toList_toString_negSucc, List.mem_cons] at h
      obtain rfl | h := h
      · simp [isNumberChar]
      · simp [isNumberChar, isDigit_of_mem h]

theorem toDigits_injective {m n : Nat} (h : Nat.toDigits 10 m = Nat.toDigits 10 n) : m = n := by
  rw [← Nat.ofDigitChars_ten_toDigits (n := m), h, Nat.ofDigitChars_ten_toDigits]

theorem toDigits_ne_minus {m : Nat} {digits : List Char} : Nat.toDigits 10 m ≠ '-' :: digits := by
  intro h
  have hminus : '-' ∈ Nat.toDigits 10 m := h ▸ List.mem_cons_self
  exact absurd (isDigit_of_mem hminus) (by decide)

theorem toList_toString_injective {m n : Int} (h : (toString m).toList = (toString n).toList) :
    m = n := by
  cases m <;> cases n <;> simp only [toList_toString_ofNat, toList_toString_negSucc] at h
  · rw [toDigits_injective h]
  · exact absurd h toDigits_ne_minus
  · exact absurd h.symm toDigits_ne_minus
  · have hsucc := toDigits_injective (List.cons.inj h).2
    rw [Nat.succ.inj hsucc]

theorem toList_toString_ne_nil (n : Int) : (toString n).toList ≠ [] := by
  cases n with
  | ofNat n =>
      rw [toList_toString_ofNat]
      exact Nat.toDigits_ne_nil
  | negSucc n =>
      rw [toList_toString_negSucc]
      exact List.cons_ne_nil _ _

/-- A run of characters of one class is told from what follows, if that begins with no such
character. -/
theorem append_inj_of_run {p : Char → Bool} {run run' rest rest' : List Char}
    (hrun : ∀ c ∈ run, p c = true) (hrun' : ∀ c ∈ run', p c = true)
    (hrest : ∀ c ∈ rest.head?, p c = false) (hrest' : ∀ c ∈ rest'.head?, p c = false)
    (h : run ++ rest = run' ++ rest') : run = run' ∧ rest = rest' := by
  have htakeWhile {run rest : List Char} (hrun : ∀ c ∈ run, p c = true)
      (hrest : ∀ c ∈ rest.head?, p c = false) : (run ++ rest).takeWhile p = run := by
    rw [List.takeWhile_append_of_pos hrun]
    cases rest with
    | nil => simp
    | cons c rest => simp [hrest c rfl]
  have hsame : run = run' := by
    rw [← htakeWhile hrun hrest, h, htakeWhile hrun' hrest']
  rw [hsame] at h
  exact ⟨hsame, List.append_cancel_left h⟩

/-! ### Decimals -/

/-- A character that numbers are written with. -/
def IsNumeral (c : Char) : Prop :=
  c.isDigit = true ∨ c ∈ ['-', '+', '.', 'e']

instance (c : Char) : Decidable (IsNumeral c) :=
  inferInstanceAs (Decidable (_ ∨ _))

theorem isNumeral_int (n : Int) : ∀ c ∈ (toString n).toList, IsNumeral c := by
  intro c hc
  obtain hdigit | hminus := Bool.or_eq_true_iff.mp (isNumberChar_of_mem hc)
  · exact .inl hdigit
  · exact .inr (eq_of_beq hminus ▸ List.mem_cons_self)

theorem isNumeral_decimal {style : NumberStyle} (hsign : ∀ c ∈ style.exponentSign.toList, IsNumeral c)
    (d : Decimal) : ∀ c ∈ (d.text style).toList, IsNumeral c := by
  have hdigits : ∀ c ∈ Nat.toDigits 10 d.digits, IsNumeral c := fun c hc => .inl (isDigit_of_mem hc)
  have htake (n : Nat) : ∀ c ∈ (Nat.toDigits 10 d.digits).take n, IsNumeral c :=
    fun c hc => hdigits c (List.mem_of_mem_take hc)
  have hdrop (n : Nat) : ∀ c ∈ '.' :: (Nat.toDigits 10 d.digits).drop n, IsNumeral c :=
    List.forall_mem_cons.mpr ⟨by decide, fun c hc => hdigits c (List.mem_of_mem_drop hc)⟩
  have hzeros (n : Nat) : ∀ c ∈ List.replicate n '0', IsNumeral c :=
    fun c hc => List.eq_of_mem_replicate hc ▸ by decide
  unfold Decimal.text
  dsimp only
  split
  · rw [String.toList_ofList]
    split
    · exact List.forall_mem_append.mpr ⟨List.forall_mem_append.mpr ⟨hdigits, hzeros _⟩, by decide⟩
    · split
      · exact List.forall_mem_append.mpr ⟨htake _, hdrop _⟩
      · exact List.forall_mem_append.mpr ⟨List.forall_mem_cons.mpr ⟨by decide,
          List.forall_mem_cons.mpr ⟨by decide, hzeros _⟩⟩, hdigits⟩
  · simp only [String.toList_append, String.toList_ofList, List.forall_mem_append]
    refine ⟨⟨⟨⟨htake 1, ?_⟩, by decide⟩, ?_⟩, isNumeral_int _⟩
    · split
      · exact List.forall_mem_nil _
      · exact hdrop 1
    · split
      · exact List.forall_mem_nil _
      · exact hsign

theorem isNumeral_binary64 {style : NumberStyle} (hsign : ∀ c ∈ style.exponentSign.toList, IsNumeral c)
    (x : Binary64) : ∀ c ∈ (x.text style).toList, IsNumeral c := by
  rw [Binary64.text, String.toList_append, List.forall_mem_append]
  refine ⟨?_, isNumeral_decimal hsign _⟩
  split <;> decide

end ApiSuite.Text
