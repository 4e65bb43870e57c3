import SignalBridge.Proofs.QuotedText
import SignalBridge.Proofs.WholeDouble

/-! Texts that have been given their fractions. Where `.0` was put behind a number, the number ends there as it ended
    before, the zero begins no number of its own, and what comes next is seen behind a digit as it was. Quotes are
    paired in the same way. So giving fractions again changes nothing. -/

namespace SignalBridge.Expression
variable {s digits rest : List Char} {c : Char} {previous : Option Char}

/-! ### Quoted parts -/

theorem splitQuoted_unclosed (h : closes s = false) : splitQuoted s = (s, []) := by
  fun_induction closes s with
  | case1 => rfl
  | case2 => cases h
  | case3 c s ih => simp [splitQuoted, ih h]
  | case4 c s hquote hescape ih =>
    cases s with
    | nil =>
      rw [splitQuoted]
      · rfl
      · exact hquote
      · simp
    | cons d s => rw [splitQuoted_cons hquote fun heq => hescape d s heq rfl, ih h]

/-- A quoted part is one also before another rest, unless it has no end. -/
theorem splitQuoted_again (h : closes s = true ∨ rest = []) :
    splitQuoted ((splitQuoted s).1 ++ rest) = ((splitQuoted s).1, rest) := by
  by_cases hcloses : closes s = true
  · exact (splitQuoted_closed hcloses rest).2
  · have hunclosed := splitQuoted_unclosed (Bool.eq_false_iff.mpr hcloses)
    obtain rfl := h.resolve_left hcloses
    rw [hunclosed, List.append_nil, hunclosed]

theorem closes_or_addFractions_eq_nil :
    closes s = true ∨ addFractions previous (splitQuoted s).2 = [] := by
  by_cases hcloses : closes s = true
  · exact .inl hcloses
  · rw [splitQuoted_unclosed (Bool.eq_false_iff.mpr hcloses), addFractions]
    exact .inr rfl

/-! ### Numbers -/

/-- A fraction begins no number, and a rest that continues no number is seen behind it as it was seen before. -/
theorem addFractions_fraction (hrest : rest.head?.any continuesAfter = false) :
    addFractions previous ('.' :: '0' :: rest) = '.' :: '0' :: addFractions previous rest := by
  rw [addFractions_of_not_isDigit (by decide) (by decide), addFractions_cons (by decide), if_neg (by decide),
    addFractions_eq_none (.inr hrest), ← addFractions_eq_none (.inr hrest)]

theorem head?_dropWhile_isDigit : (s.dropWhile Char.isDigit).head?.any Char.isDigit = false := by
  have h := List.head?_dropWhile_not Char.isDigit s
  cases hhead : (s.dropWhile Char.isDigit).head? with
  | none => rfl
  | some c => simpa [hhead] using h

/-! ### Texts -/

theorem addFractions_addFractions (previous : Option Char) (s : List Char) :
    addFractions previous (addFractions previous s) = addFractions previous s := by
  fun_induction addFractions previous s with
  | case1 => rw [addFractions]
  | case2 previous s ih =>
    rw [List.cons_append, addFractions_quoted, splitQuoted_again closes_or_addFractions_eq_nil, ih]
    rfl
  | case3 previous c s hquote hnumber digits after fraction ih =>
    have hdigits : digits.all Char.isDigit = true := List.all_eq_true.mpr fun d => List.mem_takeWhile_imp
    have hhead : (addFractions (some c) after).head? = after.head? := head?_addFractions
    by_cases hafter : after.head?.any continuesAfter = true
    · have hfraction : fraction = [] := if_pos hafter
      have hend : (addFractions (some c) after).head?.any Char.isDigit = false := hhead ▸ head?_dropWhile_isDigit
      rw [hfraction, List.append_nil, List.cons_append, addFractions_number hnumber hdigits hend, hhead, if_pos hafter,
        ih, List.append_nil, List.cons_append]
    · have hfraction : fraction = ['.', '0'] := if_neg hafter
      have hend : (addFractions (some c) after).head?.any continuesAfter = false :=
        hhead ▸ Bool.eq_false_iff.mpr hafter
      -- Behind the same digits the second pass meets the point, which keeps it from giving another fraction.
      rw [hfraction, List.append_assoc, List.cons_append, addFractions_number hnumber hdigits rfl]
      change c :: digits ++ [] ++ addFractions (some c) ('.' :: '0' :: addFractions (some c) after) = _
      rw [addFractions_fraction hend, ih, List.append_nil]
      rfl
  | case4 previous c s hquote hnumber ih => rw [addFractions_cons hquote, if_neg hnumber, ih]

/-- A text that has been given its fractions stays as it is when it is given them again. -/
theorem withFractions_withFractions (source : String) :
    withFractions (withFractions source) = withFractions source := by
  rw [withFractions, withFractions, String.toList_ofList, addFractions_addFractions]

end SignalBridge.Expression
