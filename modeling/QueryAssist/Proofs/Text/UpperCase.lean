import QueryAssist.Proofs.Text.LetterCase

/-!
# Upper-case forms are their own upper-case forms

No character that upper-casing gives is one that it changes. The code points of
both kinds are kept as bit sets, so that the tables are compared in one step. No
character but a dot gives a dot, so a path is raised segment by segment, and a
catalog gives the same table for all paths of one upper-case form.
-/

set_option maxRecDepth 8000

namespace QueryAssist.Text

/-! ## Sets of code points -/

/-- The number with a bit for each code point. -/
def bitSet (codes : List Nat) : Nat :=
  codes.foldr (fun code bits => 1 <<< code ||| bits) 0

theorem testBit_bitSet {codes : List Nat} {code : Nat} (h : code ∈ codes) :
    (bitSet codes).testBit code = true := by
  induction codes with
  | nil => cases h
  | cons first codes ih =>
    rw [bitSet, List.foldr_cons, Nat.testBit_or, Bool.or_eq_true]
    rcases List.mem_cons.1 h with rfl | h
    · exact Or.inl (by simp [Nat.testBit_shiftLeft])
    · exact Or.inr (ih h)

/-- Sets without a common bit have no common member. -/
theorem notMem_of_bitSet {codes codes' : List Nat}
    (hdisjoint : bitSet codes &&& bitSet codes' = 0) {code : Nat}
    (h : code ∈ codes) : code ∉ codes' := by
  intro h'
  have hboth : (bitSet codes &&& bitSet codes').testBit code = true := by
    rw [Nat.testBit_and, testBit_bitSet h, testBit_bitSet h', Bool.and_self]
  rw [hdisjoint, Nat.zero_testBit] at hboth
  cases hboth

/-! ## The code points of the tables -/

/-- As many code points from `start` on as a run maps, in its steps. -/
def runCodes (start : Nat) : Nat × Nat × Nat × Nat → List Nat
  | (first, last, step, _) => List.range' start ((last - first) / step + 1) step

/-- The code points that upper-casing changes. -/
def changedCodes : List Nat :=
  upperRuns.flatMap (fun run => runCodes run.1 run)
    ++ upperExpansions.map Prod.fst ++ List.range' 97 26

/-- The code points outside ASCII letters that upper-casing gives for them. -/
def imageCodes : List Nat :=
  upperRuns.flatMap (fun run => runCodes run.2.2.2 run)
    ++ upperExpansions.flatMap Prod.snd

/-- No image is changed again, and each is the code point of a character. -/
theorem image_cases {code : Nat} (h : code ∈ imageCodes) :
    code ∉ changedCodes ∧ (Char.ofNat code).toNat = code := by
  have hdisjoint : bitSet imageCodes &&& bitSet changedCodes = 0 := by
    decide +kernel
  have hvalid : imageCodes.all (fun code => (Char.ofNat code).toNat == code)
      = true := by decide +kernel
  exact ⟨notMem_of_bitSet hdisjoint h,
    beq_iff_eq.1 (List.all_eq_true.1 hvalid code h)⟩

theorem mem_runCodes {first last step image code : Nat} (hlow : first ≤ code)
    (hhigh : code ≤ last) (hstep : (code - first) % step = 0) (start : Nat) :
    start + (code - first) ∈ runCodes start (first, last, step, image) := by
  have hle : (code - first) / step ≤ (last - first) / step :=
    Nat.div_le_div_right (by omega)
  have hwhole := Nat.mod_add_div (code - first) step
  exact List.mem_range'.2 ⟨(code - first) / step, by omega, by omega⟩

/-- The runs leave a code point as it is, or change it to an image. -/
theorem runImage_cases (code : Nat) :
    runImage upperRuns code = code ∨
      code ∈ changedCodes ∧ runImage upperRuns code ∈ imageCodes := by
  unfold runImage
  split
  · rename_i first last step image hfind
    have hrun := List.mem_of_find?_eq_some hfind
    have hin := List.find?_some hfind
    simp only [Bool.and_eq_true, decide_eq_true_eq, beq_iff_eq] at hin
    obtain ⟨⟨hlow, hhigh⟩, hstep⟩ := hin
    have hcode : first + (code - first)
        ∈ runCodes first (first, last, step, image) :=
      mem_runCodes hlow hhigh hstep first
    rw [Nat.add_sub_cancel' hlow] at hcode
    right
    constructor
    · exact List.mem_append_left _
        (List.mem_append_left _ (List.mem_flatMap.2 ⟨_, hrun, hcode⟩))
    · exact List.mem_append_left _
        (List.mem_flatMap.2 ⟨_, hrun, mem_runCodes hlow hhigh hstep image⟩)
  · exact Or.inl rfl

theorem lookup_upperExpansions {code : Nat} {codes : List Nat}
    (h : upperExpansions.lookup code = some codes) :
    code ∈ changedCodes ∧ ∀ image ∈ codes, image ∈ imageCodes := by
  obtain ⟨before, after, hsplit, -⟩ := List.lookup_eq_some_iff.1 h
  have hmem : (code, codes) ∈ upperExpansions := by rw [hsplit]; simp
  constructor
  · exact List.mem_append_left _
      (List.mem_append_right _ (List.mem_map.2 ⟨_, hmem, rfl⟩))
  · exact fun image himage =>
      List.mem_append_right _ (List.mem_flatMap.2 ⟨_, hmem, himage⟩)

/-! ## Characters -/

theorem upperChar_of_unchanged {c : Char}
    (h : c.toNat ∉ changedCodes) : upperChar c = [c] := by
  rw [upperChar]
  split
  · rcases toUpper_cases c with hsame | hsmall
    · rw [hsame]
    · have hletter : c.toNat ∈ List.range' 97 26 := by
        rw [show List.range' 97 26 = smallLetters.map Char.toNat by decide]
        exact List.mem_map_of_mem hsmall
      exact absurd (List.mem_append_right _ hletter) h
  · rw [caseImage]
    split
    · rename_i hlookup
      exact absurd (lookup_upperExpansions hlookup).1 h
    · rcases runImage_cases c.toNat with hsame | ⟨hchanged, -⟩
      · rw [hsame, Char.ofNat_toNat]
      · exact absurd hchanged h

theorem upperChar_of_image {code : Nat} (h : code ∈ imageCodes) :
    upperChar (Char.ofNat code) = [Char.ofNat code] := by
  obtain ⟨hunchanged, hcode⟩ := image_cases h
  exact upperChar_of_unchanged (by rwa [hcode])

/-- What a character is changed to is not changed again. -/
theorem upperChar_of_mem {c image : Char}
    (h : image ∈ upperChar c) : upperChar image = [image] := by
  by_cases hascii : c.toNat < 0x80
  · rw [upperChar, if_pos hascii, List.mem_singleton] at h
    rw [h, upperChar_toUpper, upperChar, if_pos hascii]
  · have hwhole : upperChar c = caseImage upperExpansions upperRuns c.toNat :=
      if_neg hascii
    rw [hwhole, caseImage] at h
    split at h
    · rename_i codes hlookup
      obtain ⟨code, hcode, rfl⟩ := List.mem_map.1 h
      exact upperChar_of_image ((lookup_upperExpansions hlookup).2 code hcode)
    · rename_i hlookup
      rw [List.mem_singleton] at h
      rcases runImage_cases c.toNat with hsame | ⟨-, himage⟩
      · rw [hsame, Char.ofNat_toNat] at h
        rw [h, hwhole, caseImage, hlookup, hsame, Char.ofNat_toNat]
      · rw [h]
        exact upperChar_of_image himage

/-- An upper-case form is its own upper-case form. -/
@[simp]
theorem upper_upper (s : String) : upper (upper s) = upper s := by
  have hchar : ∀ c, (upperChar c).flatMap upperChar = upperChar c := by
    intro c
    rw [List.flatMap_def,
      List.map_congr_left fun image himage => upperChar_of_mem himage,
      ← List.flatMap_def, List.flatMap_singleton']
  rw [upper, upper, String.toList_ofList, List.flatMap_assoc]
  simp only [hchar]

/-- In ASCII upper-casing changes the letters only. -/
theorem upper_of_isAscii {s : String}
    (h : ∀ c ∈ s.toList, c.toNat < 0x80) : upper s = foldAscii s := by
  have hchars : ∀ cs : Text, (∀ c ∈ cs, c.toNat < 0x80) →
      cs.flatMap upperChar = cs.map Char.toUpper := by
    intro cs hcs
    induction cs with
    | nil => rfl
    | cons c cs ih =>
      rw [List.flatMap_cons, upperChar, if_pos (hcs c (by simp)),
        ih fun d hd => hcs d (by simp [hd])]
      rfl
  rw [upper, hchars _ h, foldAscii]

/-! ## Paths -/

/-- Only a dot gives a dot. -/
theorem eq_dot_of_dot_mem_upperChar {c : Char}
    (h : '.' ∈ upperChar c) : c = '.' := by
  have himage : ∀ code ∈ imageCodes, '.' ≠ Char.ofNat code := by
    have hnone : 46 ∉ imageCodes := by decide +kernel
    intro code hcode hdot
    rw [← (image_cases hcode).2, ← hdot] at hcode
    exact hnone hcode
  by_cases hascii : c.toNat < 0x80
  · rw [upperChar, if_pos hascii, List.mem_singleton] at h
    have hbeq := toUpper_beq (m := '.') (by decide) c
    rw [← h, beq_self_eq_true] at hbeq
    exact beq_iff_eq.1 hbeq.symm
  · rw [upperChar, if_neg hascii, caseImage] at h
    split at h
    · rename_i codes hlookup
      obtain ⟨code, hcode, hdot⟩ := List.mem_map.1 h
      exact absurd hdot.symm
        (himage code ((lookup_upperExpansions hlookup).2 code hcode))
    · rw [List.mem_singleton] at h
      rcases runImage_cases c.toNat with hsame | ⟨-, hcode⟩
      · rw [h, hsame, Char.ofNat_toNat]
      · exact absurd h (himage _ hcode)

theorem dot_notMem_upper {s : String}
    (h : '.' ∉ s.toList) : '.' ∉ (upper s).toList := by
  rw [upper, String.toList_ofList, List.mem_flatMap]
  rintro ⟨c, hc, hdot⟩
  exact h (eq_dot_of_dot_mem_upperChar hdot ▸ hc)

theorem upper_append (a b : String) : upper (a ++ b) = upper a ++ upper b := by
  rw [upper, String.toList_append, List.flatMap_append, String.ofList_append,
    upper, upper]

/-- A path is a single name, or a name behind a qualifier and a dot. -/
theorem path_cases (path : String) :
    '.' ∉ path.toList ∨
      ∃ qualifier name,
        path = qualifier ++ "." ++ name ∧ '.' ∉ name.toList := by
  by_cases h : '.' ∈ path.toList
  · right
    obtain ⟨name, qualifier, hsplit, hname⟩ :=
      List.eq_append_cons_of_mem (List.mem_reverse.2 h)
    refine ⟨String.ofList qualifier.reverse, String.ofList name.reverse, ?_,
      by simpa using hname⟩
    rw [← String.toList_inj, ← path.toList.reverse_reverse, hsplit]
    simp
  · exact Or.inl h

theorem lastSegment_upper (path : String) :
    lastSegment (upper path) = upper (lastSegment path) := by
  rcases path_cases path with hname | ⟨qualifier, name, rfl, hname⟩
  · rw [lastSegment_name hname, lastSegment_name (dot_notMem_upper hname)]
  · have hdot : upper "." = "." := by decide
    rw [upper_append, upper_append, hdot,
      lastSegment_qualified (dot_notMem_upper hname),
      lastSegment_qualified hname]

theorem beforeLastDot_upper (path : String) :
    beforeLastDot (upper path) = (beforeLastDot path).map upper := by
  rcases path_cases path with hname | ⟨qualifier, name, rfl, hname⟩
  · rw [beforeLastDot_name hname, beforeLastDot_name (dot_notMem_upper hname),
      Option.map_none]
  · have hdot : upper "." = "." := by decide
    rw [upper_append, upper_append, hdot,
      beforeLastDot_qualified (dot_notMem_upper hname),
      beforeLastDot_qualified hname, Option.map_some]

/-- A catalog does not see the case of names. -/
theorem table?_upper (catalog : Catalog) (path : String) :
    catalog.table? (upper path) = catalog.table? path := by
  have hschema : ∀ schema,
      catalog.schema? (upper schema) = catalog.schema? schema := by
    intro schema
    rw [Catalog.schema?, upper_upper, Catalog.schema?]
  rw [Catalog.table?, Catalog.table?, QualifiedName.parse, QualifiedName.parse,
    lastSegment_upper, beforeLastDot_upper]
  cases beforeLastDot path with
  | none => simp only [Option.map_none, upper_upper]
  | some qualifier =>
    simp only [Option.map_some, lastSegment_upper, upper_upper, hschema]

theorem table?_of_upper_eq {a b : String} (h : upper a = upper b)
    (catalog : Catalog) : catalog.table? a = catalog.table? b := by
  rw [← table?_upper, h, table?_upper]

end QueryAssist.Text
