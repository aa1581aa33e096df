import LinkedSchema.Proofs.Placement
import LinkedSchema.Proofs.Pointers

/-!
# Pointers into an instance

A place in an instance can be written as a pointer, and the pointer can be read along the instance.
Cut at its slashes, the pointer gives back the segments of the steps (`names_intercalate`), and read
along the way that they lead, a number is taken for an index exactly where the step was one
(`stepsAlong_texts`). But all slashes at the start of the pointer are dropped before it is cut, so
that empty names in front of other steps are lost. `render_ofPointer_iff` says that the place is
spelled as it is exactly when there are none.

A lost name is never made up for by another reading of the rest: what is left may be read as other
steps, but a name and an index written alike end in different characters, so that two readings of
the same segments have the same text only if they are the same steps.
-/

namespace LinkedSchema.Locator

open Pointer

/-- The text that the segment of a step stands for. -/
def stepText : Step → String
  | .name name => name
  | .index i => toString i

/-! ## Cutting a pointer -/

/-- The digits of an index are a segment of their own, without anything to escape. -/
theorem escape_toString (i : Nat) : escape (toString i) = toString i := by
  have hlist : (toString i).toList = Nat.toDigits 10 i := Nat.toList_repr
  have hkeep : ∀ cs : List Char, (∀ c ∈ cs, c.isDigit = true) → (cs.flatMap fun c =>
      if c = '~' then ['~', '0'] else if c = '/' then ['~', '1'] else [c]) = cs := by
    intro cs
    induction cs with
    | nil => exact fun _ => rfl
    | cons c rest ih =>
      intro h
      obtain ⟨hc, hrest⟩ := List.forall_mem_cons.mp h
      have htilde : c ≠ '~' := by rintro rfl; cases hc
      have hslash : c ≠ '/' := by rintro rfl; cases hc
      rw [List.flatMap_cons, if_neg htilde, if_neg hslash, ih hrest, List.singleton_append]
  have hdigits : ∀ c ∈ (toString i).toList, c.isDigit = true := by
    rw [hlist]
    exact fun c hc => Nat.isDigit_of_mem_toDigits (by decide) (by decide) hc
  rw [escape, hkeep _ hdigits, String.ofList_toList]

/-- A segment is the escaped text of its step. -/
theorem segment_eq (step : Step) : segment step = escape (stepText step) := by
  cases step with
  | name name => rfl
  | index i => exact (escape_toString i).symm

/-- Only the segment of the empty name is empty. -/
theorem segment_eq_empty {step : Step} : segment step = "" ↔ step = .name "" := by
  rw [segment_eq, escape_eq_empty]
  cases step with
  | name name => simp [stepText]
  | index i =>
    have hne : (toString i).toList ≠ [] := by
      have hlist : (toString i).toList = Nat.toDigits 10 i := Nat.toList_repr
      rw [hlist]
      exact Nat.toDigits_ne_nil
    refine iff_of_false (fun h => hne ?_) (by simp)
    rw [stepText] at h
    rw [h, String.toList_empty]

/-- No segment has a slash. -/
theorem slash_notMem_segment (step : Step) : '/' ∉ (segment step).toList := by
  rw [segment_eq]
  exact slash_notMem_escape _

/-- Segments that are joined and cut give back the texts of their steps. -/
theorem names_intercalate {steps : List Step} (h : steps ≠ []) :
    names (String.intercalate "/" (steps.map segment)) = steps.map stepText := by
  have hne : steps.map segment ≠ [] := fun he => h (List.map_eq_nil_iff.mp he)
  have hslash : ∀ piece ∈ steps.map segment, '/' ∉ piece.toList := by
    intro piece hpiece
    obtain ⟨step, -, rfl⟩ := List.mem_map.mp hpiece
    exact slash_notMem_segment step
  rw [names, Text.split_intercalate hne hslash, List.map_map]
  refine List.map_congr_left fun step _ => ?_
  rw [Function.comp_apply, segment_eq, unescape_escape]

/-- The pointer of some steps is their segments behind one slash. -/
theorem toPointer_cons (step : Step) (rest : List Step) :
    toPointer ⟨step :: rest⟩ = "/" ++ String.intercalate "/" ((step :: rest).map segment) := by
  induction rest generalizing step with
  | nil => simp [toPointer]
  | cons next rest ih =>
    have hjoin : toPointer ⟨step :: next :: rest⟩ =
        "/" ++ segment step ++ toPointer ⟨next :: rest⟩ := by
      simp only [toPointer, List.map_cons, String.join_cons]
    rw [hjoin, ih]
    simp only [List.map_cons, String.intercalate_cons_cons, String.append_assoc]

/-- Steps start with an empty name that is not the last of them. -/
def LeadsWithEmptyName (steps : List Step) : Prop := ∃ next rest, steps = .name "" :: next :: rest

/-- The joined segments of steps start with a slash only if the steps start with an empty name. -/
theorem head?_intercalate {step : Step} {rest : List Step}
    (h : ¬LeadsWithEmptyName (step :: rest)) :
    (String.intercalate "/" ((step :: rest).map segment)).toList.head? ≠ some '/' := by
  have hslash := slash_notMem_segment step
  cases rest with
  | nil =>
    rw [List.map_singleton, String.intercalate_singleton]
    exact fun hhead => hslash (List.mem_of_mem_head? hhead)
  | cons next rest =>
    have hne : segment step ≠ "" := fun he =>
      h ⟨next, rest, congrArg (· :: next :: rest) (segment_eq_empty.mp he)⟩
    obtain ⟨c, cs, hc⟩ := List.exists_cons_of_ne_nil fun he => hne (String.toList_eq_nil_iff.mp he)
    rw [List.map_cons, List.map_cons, String.intercalate_cons_cons, String.toList_append,
      String.toList_append, hc, List.cons_append, List.cons_append, List.head?_cons]
    rintro he
    rw [hc, Option.some.inj he] at hslash
    exact hslash List.mem_cons_self

/-- Without an empty name in front of other steps, one slash is dropped and all texts are read. -/
theorem ofPointer_toPointer {steps : List Step} (hne : steps ≠ [])
    (h : ¬LeadsWithEmptyName steps) (v : Json) :
    ofPointer (toPointer ⟨steps⟩) v = ⟨stepsAlong (some v) (steps.map stepText)⟩ := by
  obtain ⟨step, rest, rfl⟩ := List.exists_cons_of_ne_nil hne
  have hhead := head?_intercalate h
  have hnames := names_intercalate hne
  have hempty : ("/" ++ String.intercalate "/" ((step :: rest).map segment)).isEmpty = false := by
    simp
  rw [toPointer_cons]
  generalize String.intercalate "/" ((step :: rest).map segment) = joined at *
  have hdrop : ("/" ++ joined).toList.dropWhile (· == '/') = joined.toList := by
    rw [String.toList_append]
    cases hj : joined.toList with
    | nil => rfl
    | cons c cs =>
      have hc : c ≠ '/' := by simpa [hj] using hhead
      simp [hc]
  unfold ofPointer
  rw [hempty, if_neg Bool.false_ne_true, hdrop, String.ofList_toList]
  dsimp only
  rw [hnames]

/-- An empty name in front of other steps is lost. -/
theorem ofPointer_toPointer_lead (next : Step) (rest : List Step) (v : Json) :
    ofPointer (toPointer ⟨.name "" :: next :: rest⟩) v =
      ofPointer (toPointer ⟨next :: rest⟩) v := by
  have hjoin : toPointer ⟨.name "" :: next :: rest⟩ = "/" ++ toPointer ⟨next :: rest⟩ := by
    simp [toPointer, segment, escape]
  have hempty : (toPointer ⟨next :: rest⟩).isEmpty = false := by
    rw [toPointer_cons]
    simp
  have hempty' : ("/" ++ toPointer ⟨next :: rest⟩).isEmpty = false := by simp
  have hdrop : ("/" ++ toPointer ⟨next :: rest⟩).toList.dropWhile (· == '/') =
      (toPointer ⟨next :: rest⟩).toList.dropWhile (· == '/') := by
    rw [String.toList_append]
    rfl
  unfold ofPointer
  rw [hjoin, hempty, hempty', if_neg Bool.false_ne_true, if_neg Bool.false_ne_true, hdrop]

/-- Whatever is lost, the steps that are left are read from the root of the instance. -/
theorem exists_stepsAlong (v : Json) {steps : List Step} (hne : steps ≠ []) :
    ∃ lost left, steps = lost ++ left ∧
      ofPointer (toPointer ⟨steps⟩) v = ⟨stepsAlong (some v) (left.map stepText)⟩ := by
  induction steps with
  | nil => exact absurd rfl hne
  | cons step rest ih =>
    by_cases h : LeadsWithEmptyName (step :: rest)
    · obtain ⟨next, others, he⟩ := h
      cases he
      obtain ⟨lost, left, he, hread⟩ := ih (List.cons_ne_nil _ _)
      refine ⟨.name "" :: lost, left, by rw [he, List.cons_append], ?_⟩
      rw [ofPointer_toPointer_lead, hread]
    · exact ⟨[], step :: rest, rfl, ofPointer_toPointer hne h v⟩

/-! ## Reading along the instance -/

/-- The digits of an index that a machine word holds are read as the index. -/
theorem natural?_toString {i : Nat} (h : i < wordLimit) : natural? (toString i) = some i :=
  natural?_eq_some_iff.mpr ⟨index?_toString i, h⟩

/-- The texts of steps that exist in a value are read as these steps. -/
theorem stepsAlong_texts {steps : List Step} {v w : Json} (hat : v.at? steps = some w)
    (hindex : ∀ i, .index i ∈ steps → i < wordLimit) :
    stepsAlong (some v) (steps.map stepText) = steps := by
  induction steps generalizing v with
  | nil => rfl
  | cons step rest ih =>
    rw [Json.at?] at hat
    obtain ⟨u, hu, hat⟩ := Option.bind_eq_some_iff.mp hat
    have hrest := ih hat fun i hi => hindex i (List.mem_cons_of_mem _ hi)
    cases step with
    | name name =>
      cases v with
      | obj members =>
        have hmember : Json.member? (.obj members) name = some u := hu
        rw [List.map_cons, stepText, stepsAlong]
        · rw [Option.bind_some, hmember, hrest]
        · intro items i h _
          cases h
      | _ => cases hu
    | index i =>
      cases v with
      | arr items =>
        have hitem : items[i]? = some u := hu
        have hread := natural?_toString (hindex i List.mem_cons_self)
        rw [List.map_cons, stepText, stepsAlong.eq_def]
        simp only [hread, hitem, hrest]
      | _ => cases hu

/-! ## Written forms -/

/-- A step is one of the ways to read a text. -/
inductive Reads (text : String) : Step → Prop
  /-- The text is a name. -/
  | name : Reads text (.name text)
  /-- The text is an index. -/
  | index {i : Nat} (h : natural? text = some i) : Reads text (.index i)

/-- A step is a way to read its text. -/
theorem reads_stepText {step : Step} (h : ∀ i, step = .index i → i < wordLimit) :
    Reads (stepText step) step := by
  cases step with
  | name name => exact .name
  | index i => exact .index (natural?_toString (h i rfl))

/-- A text that is an index ends in a digit. -/
theorem getLast?_of_natural? {text : String} {i : Nat} (h : natural? text = some i) :
    ∃ c, text.toList.getLast? = some c ∧ c.isDigit = true := by
  have hindex := (natural?_eq_some_iff.mp h).1
  unfold index? at hindex
  dsimp only at hindex
  split at hindex
  · cases hindex
  · next hdigits =>
    obtain ⟨hne, hall⟩ : unsigned text.toList ≠ [] ∧
        ∀ c ∈ unsigned text.toList, c.isDigit = true := by simpa using hdigits
    have hlast : text.toList.getLast? = (unsigned text.toList).getLast? := by
      unfold unsigned at hne ⊢
      split
      · next rest heq =>
        obtain ⟨c, cs, rfl⟩ : ∃ c cs, rest = c :: cs :=
          List.exists_cons_of_ne_nil (by simpa [heq] using hne)
        rw [heq, List.getLast?_cons_cons]
      · rfl
    refine ⟨_, hlast.trans (List.getLast?_eq_some_getLast hne), ?_⟩
    exact hall _ (List.getLast_mem hne)

/-- The last character of a step. -/
def lastChar (step : Step) : Option Char := step.render.toList.getLast?

/-- Two ways to read a text are the same or end in different characters. -/
theorem Reads.eq_or_lastChar_ne {text : String} {step step' : Step} (h : Reads text step)
    (h' : Reads text step') : step = step' ∨ lastChar step ≠ lastChar step' := by
  have hname : ∀ {i}, natural? text = some i →
      lastChar (.name text) ≠ lastChar (.index i) := by
    intro i hi
    obtain ⟨c, hc, hdigit⟩ := getLast?_of_natural? hi
    have hfirst : lastChar (.name text) = some c := by
      rw [lastChar, Step.render, String.toList_append, List.getLast?_append, hc, Option.some_or]
    have hsecond : lastChar (.index i) = some ']' := by
      rw [lastChar, Step.render, String.toList_append, List.getLast?_append]
      rfl
    rw [hfirst, hsecond]
    rintro he
    cases he
    cases hdigit
  cases h with
  | name =>
    cases h' with
    | name => exact .inl rfl
    | index hi => exact .inr (hname hi)
  | index hi =>
    cases h' with
    | name => exact .inr (hname hi).symm
    | index hi' => exact .inl (congrArg Step.index (Option.some.inj (hi.symm.trans hi')))

/-- Whatever the instance is, the texts of steps are read as steps that are the same or end in
different characters. -/
theorem stepsAlong_alike (current : Option Json) {steps : List Step}
    (hindex : ∀ i, .index i ∈ steps → i < wordLimit) :
    List.Forall₂ (fun s t => s = t ∨ lastChar s ≠ lastChar t) steps
      (stepsAlong current (steps.map stepText)) := by
  induction steps generalizing current with
  | nil => exact .nil
  | cons step rest ih =>
    have hstep : Reads (stepText step) step :=
      reads_stepText fun i he => hindex i (he ▸ List.mem_cons_self)
    have hrest : ∀ i, .index i ∈ rest → i < wordLimit := fun i hi =>
      hindex i (List.mem_cons_of_mem _ hi)
    rw [List.map_cons, stepsAlong.eq_def]
    dsimp only
    split
    · next hnatural => exact .cons (hstep.eq_or_lastChar_ne (.index hnatural)) (ih _ hrest)
    · exact .cons (hstep.eq_or_lastChar_ne .name) (ih _ hrest)

/-- The text of a locator behind its first character. -/
theorem toList_render (steps : List Step) :
    (Locator.mk steps).render.toList = '$' :: steps.flatMap (·.render.toList) := by
  rw [render, String.toList_append, String.toList_join, List.flatMap_map]
  rfl

/-- Two readings of the same texts differ in length only if nothing can make up for it: from the
last step on, they are the same or end in different characters. -/
theorem eq_nil_of_append_eq {steps steps' : List Step} {lost : List Char}
    (h : List.Forall₂ (fun s t => s = t ∨ lastChar s ≠ lastChar t) steps steps')
    (he : lost ++ steps.flatMap (·.render.toList) = steps'.flatMap (·.render.toList)) :
    lost = [] := by
  have hne : ∀ s : Step, s.render.toList ≠ [] := fun s => by
    cases s <;> simp [Step.render, String.toList_append]
  rw [← List.reverse_reverse steps, ← List.reverse_reverse steps'] at he
  replace h := List.forall₂_reverse_iff.mpr h
  generalize steps.reverse = back, steps'.reverse = back' at h he
  induction h with
  | nil => simpa using he
  | @cons s t _ _ hst _ ih =>
    simp only [List.reverse_cons, List.flatMap_append, List.flatMap_singleton,
      ← List.append_assoc] at he
    rcases hst with rfl | hlast
    · exact ih (List.append_cancel_right he)
    · have hends := congrArg List.getLast? he
      rw [List.getLast?_append_of_ne_nil _ (hne s), List.getLast?_append_of_ne_nil _ (hne t)]
        at hends
      exact absurd hends hlast

/-! ## Places and their spelling -/

/-- Going down step by step leads to the place of all steps. -/
theorem foldl_push (place : Locator) (steps : List Step) :
    steps.foldl push place = ⟨place.steps ++ steps⟩ := by
  induction steps generalizing place with
  | nil => rw [List.foldl_nil, List.append_nil]
  | cons step rest ih =>
    rw [List.foldl_cons, ih, push, List.append_assoc, List.singleton_append]

/-- The place of steps that exist in an instance, written as a pointer and read along the instance,
is spelled as it is exactly when it does not start with an empty name in front of another step. In
that case the empty name is lost, and the rest is read from the root. -/
theorem render_ofPointer_iff (v w : Json) (steps : List Step) (hat : v.at? steps = some w)
    (hindex : ∀ i, .index i ∈ steps → i < wordLimit) :
    ((ofPointer (steps.foldl push root).toPointer v).render = (steps.foldl push root).render ↔
        ¬LeadsWithEmptyName steps) ∧
      ∀ next rest, steps = .name "" :: next :: rest →
        ofPointer (steps.foldl push root).toPointer v = ofPointer (toPointer ⟨next :: rest⟩) v := by
  have hplace : steps.foldl push root = ⟨steps⟩ := foldl_push root steps
  rw [hplace]
  refine ⟨⟨?_, fun h => ?_⟩, ?_⟩
  · -- With an empty name in front, what is read is shorter, and no other reading makes up for it.
    rintro hrender ⟨next, rest, rfl⟩
    obtain ⟨lost, left, hsplit, hread⟩ := exists_stepsAlong v (List.cons_ne_nil next rest)
    have hleft : ∀ i, .index i ∈ left → i < wordLimit := fun i hi => hindex i <| by
      rw [hsplit]
      exact List.mem_cons_of_mem _ (List.mem_append_right _ hi)
    have htext := congrArg String.toList hrender
    rw [ofPointer_toPointer_lead, hread, toList_render, toList_render, hsplit,
      List.cons.injEq] at htext
    have hnil : (Step.name "" :: lost).flatMap (·.render.toList) = [] :=
      eq_nil_of_append_eq (stepsAlong_alike (some v) hleft) (by
        rw [← List.flatMap_append, List.cons_append]
        exact htext.2.symm)
    simp [Step.render] at hnil
  · by_cases hne : steps = []
    · subst hne
      rfl
    · rw [ofPointer_toPointer hne h, stepsAlong_texts hat hindex]
  · rintro next rest rfl
    exact ofPointer_toPointer_lead next rest v

/-- A value in which a name is a number, a name is empty, and a name is made of what is escaped. -/
def oddNames : Json := .obj [("0", .arr [.null, .obj [("", .obj [("~/", .null)])]])]

/-- The way down through the odd names. -/
def oddSteps : List Step := [.name "0", .index 1, .name "", .name "~/"]

/-- The place below the odd names is spelled as it is, since the empty name is not the first one. -/
theorem oddNames_spelled :
    oddNames.at? oddSteps = some .null ∧ (∀ i, .index i ∈ oddSteps → i < wordLimit) ∧
      (oddSteps.foldl push root).toPointer = "/0/1//~0~1" ∧
      (ofPointer (oddSteps.foldl push root).toPointer oddNames).render = "$.0[1]..~/" := by
  have hindex : ∀ i, .index i ∈ oddSteps → i < wordLimit := by
    intro i hi
    have hone : i = 1 := by simpa [oddSteps] using hi
    rw [hone]
    decide
  have hlead : ¬LeadsWithEmptyName oddSteps := by
    rintro ⟨_, _, he⟩
    simp [oddSteps] at he
  exact ⟨by rfl, hindex, by rfl,
    ((render_ofPointer_iff oddNames .null oddSteps (by rfl) hindex).1.mpr hlead).trans (by rfl)⟩

/-- Below a member without a name, a place is spelled as one beside this member: so not every place
of an instance is spelled as it is. -/
theorem emptyName_lost :
    ¬∀ (v w : Json) (steps : List Step), v.at? steps = some w →
      (∀ i, .index i ∈ steps → i < wordLimit) →
      (ofPointer (steps.foldl push root).toPointer v).render = (steps.foldl push root).render := by
  intro h
  have hrender := h (.obj [("", .obj [("x", .null)]), ("x", .null)]) .null [.name "", .name "x"]
    (by rfl) (by simp)
  revert hrender
  decide +kernel

end LinkedSchema.Locator
