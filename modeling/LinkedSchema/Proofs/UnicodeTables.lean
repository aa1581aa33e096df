import LinkedSchema.Pattern.Escape

/-!
# Facts read off the Unicode tables

The tables of code points are texts, which `read_ofList` opens for evaluation. Two letters outside
of ASCII are case variants of ASCII letters, and both are word characters. A backslash is in no
name: not in that of a property, whatever its notation, and not in that of a group.
-/

namespace LinkedSchema.Unicode

/-- A set of code points is read from the characters of its text. -/
theorem read_ofList (text : List Char) : CodeSet.read (String.ofList text) =
    ((Text.splitAt ' ' (text.map fun c => if c = '\n' then ' ' else c)).filter
      (!·.isEmpty)).map CodeSet.readRun := by
  rw [CodeSet.read, String.toList_ofList]

/-- What the table assigns to a category of letters are word characters. -/
theorem isWord_of_assigned {category : Category} {set : CodeSet} {c : Char} (h : ¬c.toNat < 128)
    (hletter : category ∈ letterCategories) (hassigned : Category.assigned category = set)
    (hset : set.contains c = true) : isWord c = true := by
  have hne : category ≠ .unassigned := by
    rintro rfl
    revert hletter
    decide
  have hcontains : category.contains c = true := by
    rw [Category.contains, hassigned]
    · exact hset
    · exact hne
  have hcategory : ofCategory (letterCategories ++ wordCategories) c = true :=
    List.any_eq_true.mpr ⟨category, List.mem_append_left _ hletter, hcontains⟩
  simp only [isWord, if_neg h, hcategory, Bool.true_or]

set_option maxRecDepth 100000 in
/-- The long s, which is a case variant of `s`, is a letter. -/
theorem isWord_longS : isWord '\u017f' = true := by
  have hassigned : Category.assigned .lowercaseLetter = Category.lowercaseLetterSet := by
    have hlookup (upper lower : CodeSet) (rest : List (Category × CodeSet)) :
        (List.lookup Category.lowercaseLetter
          ((.uppercaseLetter, upper) :: (.lowercaseLetter, lower) :: rest)).getD [] = lower := rfl
    exact hlookup _ _ _
  have hset : Category.lowercaseLetterSet.contains '\u017f' = true := by
    rw [Category.lowercaseLetterSet, read_ofList]
    decide +kernel
  exact isWord_of_assigned (by decide) (by decide) hassigned hset

set_option maxRecDepth 100000 in
/-- The sign for kelvins, which is a case variant of `k`, is a letter. -/
theorem isWord_kelvin : isWord '\u212a' = true := by
  have hassigned : Category.assigned .uppercaseLetter = Category.uppercaseLetterSet := by
    have hlookup (upper : CodeSet) (rest : List (Category × CodeSet)) :
        (List.lookup Category.uppercaseLetter ((.uppercaseLetter, upper) :: rest)).getD [] =
          upper := rfl
    exact hlookup _ _
  have hset : Category.uppercaseLetterSet.contains '\u212a' = true := by
    rw [Category.uppercaseLetterSet, read_ofList]
    decide +kernel
  exact isWord_of_assigned (by decide) (by decide) hassigned hset

/-! ## Names of properties -/

namespace Property

variable {name : String}

/-- No property has a backslash in its names. -/
theorem names_without_backslash :
    ∀ n ∈ Category.names.flatMap (·.2) ++ Category.groups.flatMap (·.2) ++ scripts.flatMap (·.1),
      '\\' ∉ n.toList := by
  decide +kernel

/-- Where no entry of a table has a name with a backslash, none is found by such a name. -/
theorem find?_contains_eq_none {α : Type} {table : List α} {names : α → List String}
    (hnames : ∀ n ∈ table.flatMap names, '\\' ∉ n.toList) (h : '\\' ∈ name.toList) :
    table.find? (fun entry => (names entry).contains name) = none := by
  rw [List.find?_eq_none]
  intro entry hentry hname
  exact hnames name (List.mem_flatMap.mpr ⟨entry, hentry, List.contains_iff_mem.mp hname⟩) h

/-- No general category and no group of them has a backslash in its name. -/
theorem category_ofName?_eq_none (h : '\\' ∈ name.toList) : Category.ofName? name = none := by
  have hnames : Category.names.find? (·.2.contains name) = none :=
    find?_contains_eq_none (fun n hn => names_without_backslash n
      (List.mem_append_left _ (List.mem_append_left _ hn))) h
  have hgroups : Category.groups.find? (·.2.contains name) = none :=
    find?_contains_eq_none (fun n hn => names_without_backslash n
      (List.mem_append_left _ (List.mem_append_right _ hn))) h
  rw [Category.ofName?, hnames, hgroups]
  rfl

/-- No script has a backslash in its name. -/
theorem script?_eq_none (h : '\\' ∈ name.toList) : script? name = none := by
  have hscripts : scripts.find? (·.1.contains name) = none :=
    find?_contains_eq_none (fun n hn => names_without_backslash n
      (List.mem_append_right _ hn)) h
  rw [script?, hscripts]
  rfl

/-- A name with a backslash is not one without. -/
theorem ne_of_backslash {other : String} (h : '\\' ∈ name.toList) (ho : '\\' ∉ other.toList) :
    name ≠ other := by
  rintro rfl
  exact ho h

/-- A name with a backslash is that of no category, nor of one of the sets named like categories. -/
theorem category?_eq_none (h : '\\' ∈ name.toList) : category? name = none := by
  rw [category?, if_neg (ne_of_backslash h (by decide)), if_neg (ne_of_backslash h (by decide)),
    if_neg (ne_of_backslash h (by decide)), category_ofName?_eq_none h]
  rfl

/-- A name with a backslash is that of no binary property. -/
theorem binary?_eq_none (h : '\\' ∈ name.toList) : binary? name = none := by
  have hne {names : List String} (hnames : ∀ n ∈ names, '\\' ∉ n.toList) :
      ¬names.contains name = true := fun hc => hnames name (List.contains_iff_mem.mp hc) h
  rw [binary?, if_neg (hne (by decide)), if_neg (hne (by decide)), if_neg (hne (by decide)),
    if_neg (hne (by decide))]

/-- A backslash stays in a name whatever its notation. -/
theorem backslash_normalizeName (h : '\\' ∈ name.toList) : '\\' ∈ (normalizeName name).toList := by
  have hletters : '\\' ∈ (name.toList.filter fun c => c != ' ' && c != '-' && c != '_').map
      Char.toLower := List.mem_map.mpr ⟨'\\', List.mem_filter.mpr ⟨h, by decide⟩, by decide⟩
  unfold normalizeName
  dsimp only
  split
  · next rest heq =>
    rw [heq] at hletters
    have hrest : '\\' ∈ rest := by simpa using hletters
    split
    · next hc =>
      rw [hc] at hrest
      simp at hrest
    · rwa [String.toList_ofList]
  · rwa [String.toList_ofList]

/-- A name with a backslash is not that of a property. -/
theorem ofName?_eq_none (h : '\\' ∈ name.toList) : ofName? name = none := by
  have hne {names : List String} {n : String} (hn : '\\' ∈ n.toList)
      (hnames : ∀ n ∈ names, '\\' ∉ n.toList) : ¬names.contains n = true :=
    fun hc => hnames n (List.contains_iff_mem.mp hc) hn
  have hsplit : '\\' ∈ name.toList.takeWhile (· ≠ '=') ∨
        '\\' ∈ name.toList.dropWhile (· ≠ '=') := by
    rwa [← List.mem_append, List.takeWhile_append_dropWhile]
  unfold ofName? Text.cutBefore
  dsimp only
  rcases hsplit with hkind | hvalue
  · rw [← String.toList_ofList (l := name.toList.takeWhile (· ≠ '='))] at hkind
    have hkind := backslash_normalizeName hkind
    rw [binary?_eq_none hkind, category?_eq_none hkind, script?_eq_none hkind,
      if_neg (hne hkind (by decide)), if_neg (hne hkind (by decide))]
    split <;> rfl
  · cases hdrop : name.toList.dropWhile (· ≠ '=') with
    | nil =>
      rw [hdrop] at hvalue
      cases hvalue
    | cons c rest =>
      -- The first character is the sign that the name is cut at.
      have hc : c = '=' := by
        have hhead := List.head?_dropWhile_not (· ≠ '=') name.toList
        rw [hdrop] at hhead
        simpa using hhead
      rw [hdrop, hc] at hvalue
      have hrest : '\\' ∈ rest := by simpa using hvalue
      rw [← String.toList_ofList (l := rest)] at hrest
      have hvalue := backslash_normalizeName hrest
      rw [if_neg (by simp), String.toList_ofList, List.drop_one, List.tail_cons,
        category?_eq_none hvalue, script?_eq_none hvalue]
      split
      · rfl
      · split <;> rfl

end Property

/-! ## Names of groups -/

/-- What no set of a category has in the table, the category has not. -/
theorem category_contains_eq_false {category : Category} {c : Char} (hne : category ≠ .unassigned)
    (h : ∀ set, (category, set) ∈ Category.table → set.contains c = false) :
    category.contains c = false := by
  have hassigned : (Category.assigned category).contains c = false := by
    rw [Category.assigned]
    cases hlookup : Category.table.lookup category with
    | none => rfl
    | some set =>
      obtain ⟨before, after, htable, -⟩ := List.lookup_eq_some_iff.mp hlookup
      exact h set (htable ▸ List.mem_append_right _ (List.mem_cons_self ..))
  rw [Category.contains]
  · exact hassigned
  · exact hne

/-- The categories of the characters in names of groups. -/
def nameCategories : List Category :=
  [.letterNumber, .uppercaseLetter, .lowercaseLetter, .titlecaseLetter, .modifierLetter,
    .otherLetter, .decimalNumber, .otherNumber]

set_option maxRecDepth 100000 in
/-- A backslash is neither a letter nor a number. -/
theorem backslash_not_in_table :
    ∀ category ∈ nameCategories, ∀ set, (category, set) ∈ Category.table →
      set.contains '\\' = false := by
  have hupper : Category.uppercaseLetterSet.contains '\\' = false := by
    rw [Category.uppercaseLetterSet, read_ofList]
    decide +kernel
  have hlower : Category.lowercaseLetterSet.contains '\\' = false := by
    rw [Category.lowercaseLetterSet, read_ofList]
    decide +kernel
  have htitle : Category.titlecaseLetterSet.contains '\\' = false := by
    rw [Category.titlecaseLetterSet, read_ofList]
    decide +kernel
  have hmodifier : Category.modifierLetterSet.contains '\\' = false := by
    rw [Category.modifierLetterSet, read_ofList]
    decide +kernel
  have hother : Category.otherLetterSet.contains '\\' = false := by
    rw [Category.otherLetterSet, read_ofList]
    decide +kernel
  have hdecimal : Category.decimalNumberSet.contains '\\' = false := by decide +kernel
  have hletterNumber : Category.letterNumberSet.contains '\\' = false := by
    rw [Category.letterNumberSet, read_ofList]
    decide +kernel
  have hotherNumber : Category.otherNumberSet.contains '\\' = false := by
    rw [Category.otherNumberSet, read_ofList]
    decide +kernel
  intro category hcategory set hset
  simp only [nameCategories, List.mem_cons, List.not_mem_nil, or_false] at hcategory
  simp only [Category.table, List.mem_cons, List.not_mem_nil, or_false, Prod.mk.injEq] at hset
  rcases hcategory with rfl | rfl | rfl | rfl | rfl | rfl | rfl | rfl <;>
    simp only [reduceCtorEq, false_and, true_and, false_or, or_false] at hset <;> rw [hset]
  · exact hletterNumber
  · exact hupper
  · exact hlower
  · exact htitle
  · exact hmodifier
  · exact hother
  · exact hdecimal
  · exact hotherNumber

set_option maxRecDepth 100000 in
/-- A backslash is no part of the name of a group. -/
theorem isNameChar_backslash : Pattern.isNameChar '\\' = false := by
  have hcategory : ∀ category ∈ nameCategories, category.contains '\\' = false :=
    fun category hmem => category_contains_eq_false (by
      rintro rfl
      revert hmem
      decide) (backslash_not_in_table category hmem)
  have halphabetic : otherAlphabetic.contains '\\' = false := by
    rw [otherAlphabetic, read_ofList]
    decide +kernel
  have hof {categories : List Category} (h : ∀ category ∈ categories, category ∈ nameCategories) :
      ofCategory categories '\\' = false := by
    rw [ofCategory, List.any_eq_false]
    intro category hmem
    rw [hcategory category (h category hmem)]
    decide
  rw [Pattern.isNameChar, Property.contains, hof (by decide), hof (by decide), halphabetic]
  rfl

end LinkedSchema.Unicode
