import QueryTree.Expr.Scope

/-! Names that end in a number. Such a name tells its number, so among enough of them one is
free. -/

namespace QueryTree

/-- The digits at the end of a numbered name, read backwards up to the underscore. -/
theorem takeWhile_numbered (base : String) (n : Nat) :
    ((base ++ "_" ++ toString n).toList.reverse.takeWhile (· ≠ '_')) =
      (Nat.toDigits 10 n).reverse := by
  have hdigits : ∀ c ∈ (Nat.toDigits 10 n).reverse, decide (c ≠ '_') = true := by
    intro c hc
    have hdigit := Nat.isDigit_of_mem_toDigits (by decide) (by decide) (List.mem_reverse.mp hc)
    rw [decide_eq_true_eq]
    rintro rfl
    exact absurd hdigit (by decide)
  have htext : (toString n).toList = Nat.toDigits 10 n := String.toList_ofList
  rw [String.toList_append, String.toList_append, htext, List.reverse_append, List.reverse_append,
    List.takeWhile_append_of_pos hdigits]
  simp

theorem numbered_inj {base base' : String} {n n' : Nat}
    (h : base ++ "_" ++ toString n = base' ++ "_" ++ toString n') : n = n' := by
  have hdigits : (Nat.toDigits 10 n).reverse = (Nat.toDigits 10 n').reverse := by
    rw [← takeWhile_numbered base n, ← takeWhile_numbered base' n', h]
  calc
    n = Nat.ofDigitChars 10 (Nat.toDigits 10 n) 0 := Nat.ofDigitChars_ten_toDigits.symm
    _ = Nat.ofDigitChars 10 (Nat.toDigits 10 n') 0 := by rw [List.reverse_inj.mp hdigits]
    _ = n' := Nat.ofDigitChars_ten_toDigits

namespace Expr

theorem freshName_not_mem (base : String) (taken : List String) : freshName base taken ∉ taken := by
  have hfound : ((List.range (taken.length + 1)).map
      fun n => base ++ "_" ++ toString (n + 1)).find? (· ∉ taken) ≠ none := by
    -- the candidates are more than the names that are taken, and no two of them agree
    intro hnone
    have hsub : ((List.range (taken.length + 1)).map
        fun n => base ++ "_" ++ toString (n + 1)) ⊆ taken := by
      intro name hname
      simpa using List.find?_eq_none.mp hnone name hname
    have hnodup : ((List.range (taken.length + 1)).map
        fun n => base ++ "_" ++ toString (n + 1)).Nodup := by
      apply List.pairwise_map.mpr
      apply List.nodup_range.imp
      intro i j hne heq
      exact hne (Nat.succ.inj (numbered_inj heq))
    have hlength := hnodup.length_le_of_subset hsub
    rw [List.length_map, List.length_range] at hlength
    omega
  obtain ⟨name, hname⟩ := Option.ne_none_iff_exists'.mp hfound
  have hfree := List.find?_some hname
  simp only [freshName, hname, Option.getD_some]
  exact of_decide_eq_true hfree

end Expr

end QueryTree
