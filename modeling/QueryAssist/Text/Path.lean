/-!
# Dotted paths as text
-/

namespace QueryAssist

/-- What follows the last dot of a path, or the path itself. -/
def lastSegment (path : String) : String :=
  String.ofList (path.toList.reverse.takeWhile (· != '.')).reverse

/-- What stands before the last dot of a path, if it has one. -/
def beforeLastDot (path : String) : Option String :=
  match path.toList.reverse.dropWhile (· != '.') with
  | [] => none
  | _ :: qualifier => some (String.ofList qualifier.reverse)

/-! ## Laws -/

/-- A segment holds no dot. -/
theorem dot_notMem_lastSegment (path : String) :
    '.' ∉ (lastSegment path).toList := by
  intro h
  rw [lastSegment, String.toList_ofList, List.mem_reverse] at h
  have hstop :=
    List.all_eq_true.1
      (List.all_takeWhile (p := (· != '.')) (l := path.toList.reverse)) '.' h
  simp at hstop

section

variable {name : String} (h : '.' ∉ name.toList)

include h

theorem bne_dot_of_mem : ∀ c ∈ name.toList.reverse, (c != '.') = true := by
  intro c hc
  have hne : c ≠ '.' := fun e => h (e ▸ List.mem_reverse.1 hc)
  simpa using hne

/-- A name without a dot is its own last segment. -/
theorem lastSegment_name : lastSegment name = name := by
  have hall : (name.toList.reverse ++ []).takeWhile (· != '.')
      = name.toList.reverse := by
    rw [List.takeWhile_append_of_pos (bne_dot_of_mem h), List.takeWhile_nil,
      List.append_nil]
  rw [List.append_nil] at hall
  rw [lastSegment, hall, List.reverse_reverse, String.ofList_toList]

theorem beforeLastDot_name : beforeLastDot name = none := by
  have hnone : (name.toList.reverse ++ []).dropWhile (· != '.') = [] := by
    rw [List.dropWhile_append_of_pos (bne_dot_of_mem h), List.dropWhile_nil]
  rw [List.append_nil] at hnone
  rw [beforeLastDot, hnone]

/-- Behind a qualifier and a dot, a name is the last segment. -/
theorem lastSegment_qualified (qualifier : String) :
    lastSegment (qualifier ++ "." ++ name) = name := by
  have hpath : (qualifier ++ "." ++ name).toList.reverse
      = name.toList.reverse ++ '.' :: qualifier.toList.reverse := by
    simp
  rw [lastSegment, hpath, List.takeWhile_append_of_pos (bne_dot_of_mem h)]
  simp

theorem beforeLastDot_qualified (qualifier : String) :
    beforeLastDot (qualifier ++ "." ++ name) = some qualifier := by
  have hpath : (qualifier ++ "." ++ name).toList.reverse
      = name.toList.reverse ++ '.' :: qualifier.toList.reverse := by
    simp
  rw [beforeLastDot, hpath, List.dropWhile_append_of_pos (bne_dot_of_mem h)]
  simp

end

end QueryAssist
