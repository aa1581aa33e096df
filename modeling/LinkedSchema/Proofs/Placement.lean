import LinkedSchema.Proofs.Values
import LinkedSchema.Proofs.Verdict

/-!
# Where violations stand

A violation of the structural walk stands at a part of the instance. `Json.at?` goes down a value by
steps, and `Violation.StandsIn` says that such steps lead to a value which the violation can speak
of, and that its place is the place of the instance followed by these steps. References and
alternatives keep the instance and its place, also where the violations of alternatives are marked
as branches; items and members take one step in the instance and the same step in the place. So
whatever the schema is, every report stands in the instance: by induction on the levels of the walk.
-/

namespace LinkedSchema

open Loading

/-! ## Parts of values -/

namespace Json

/-- The part of a value that is one step down, if there is one. -/
def part? : Json → Step → Option Json
  | obj members, .name name => members.lookup name
  | arr items, .index i => items[i]?
  | _, _ => none

/-- The part of a value to which steps lead, if all of them exist. -/
def at? (v : Json) : List Step → Option Json
  | [] => some v
  | step :: rest => (v.part? step).bind (at? · rest)

/-- The way to a part goes on in the part. -/
theorem at?_cons {v w : Json} {step : Step} (h : v.part? step = some w) (rest : List Step) :
    v.at? (step :: rest) = w.at? rest := by
  rw [at?, h, Option.bind_some]

end Json

/-- The written form of a place further down starts with that of the place. -/
theorem Locator.render_append (place : Locator) (steps : List Step) :
    (Locator.mk (place.steps ++ steps)).render =
      place.render ++ String.join (steps.map Step.render) := by
  rw [render, render, List.map_append, String.join_append, String.append_assoc]

/-! ## What a computation returns -/

section Yields

variable {α β : Type} {P : α → Prop} {Q : β → Prop}

/-- Whatever a computation returns has a property. -/
def Loading.Yields (x : Loading α) (P : α → Prop) : Prop :=
  ∀ ⦃s a⦄, x.outcome s = .ok a → P a

namespace Loading

/-- A value that needs no computation has the properties it has. -/
theorem Yields.pure {a : α} (h : P a) : Yields (Pure.pure a) P := by
  intro s b hb
  rw [outcome_pure, Except.ok.injEq] at hb
  exact hb ▸ h

/-- What a result that does not depend on the store holds is what is returned. -/
theorem Yields.lift {r : Except SchemaError α} (h : ∀ a, r = .ok a → P a) :
    Yields (ExceptT.mk (Pure.pure r)) P :=
  fun _ a ha => h a ha

/-- The second part of a sequence may rely on what the first part returns. -/
theorem Yields.bind {x : Loading α} {f : α → Loading β} (h : Yields x P)
    (h' : ∀ a, P a → Yields (f a) Q) : Yields (x >>= f) Q := by
  intro s b hb
  cases hx : x.outcome s with
  | error e =>
    rw [outcome_bind_error hx] at hb
    cases hb
  | ok a =>
    rw [outcome_bind_ok hx] at hb
    exact h' a (h hx) hb

/-- The first part of a sequence need not be looked at. -/
theorem Yields.seq {x : Loading α} {f : α → Loading β} (h : ∀ a, Yields (f a) Q) :
    Yields (x >>= f) Q :=
  Yields.bind (P := fun _ => True) (fun _ _ _ => trivial) fun a _ => h a

end Loading

/-- What going on behind a reference yields, following it yields. -/
theorem follow_yields {files : Texts} {schema : Members} {context : Context} {chain : Chain}
    {absent : α} {go : Target → Chain → Json → Loading α} (habsent : P absent)
    (h : ∀ target chain next, Yields (go target chain next) P) :
    Yields (follow files schema context chain absent go) P := by
  unfold follow
  split
  · exact .pure habsent
  · exact .seq fun _ => .seq fun target => .seq fun chain => .seq fun next => h target chain next

end Yields

/-! ## Standing in a value -/

variable {place : Locator} {v w : Json} {r q : Report}

/-- A value is one that a violation can speak of: of the kind that its keyword is about, and without
the member it misses or with the member it refuses. -/
def Violation.Fits (violation : Violation) (w : Json) : Prop :=
  match violation.kind with
  | .minLength | .pattern => ∃ text, w = .str text
  | .minimum | .maximum => ∃ n, w = .num n
  | .minItems | .maxItems => ∃ items, w = .arr items
  | .required => ∃ members name, w = .obj members ∧ members.lookup name = none ∧
      violation.message = "missing required property '" ++ name ++ "'"
  | .additionalProperty => ∃ members name u, w = .obj members ∧ members.lookup name = some u ∧
      violation.message = "additional property '" ++ name ++ "' not allowed"
  | .type | .enum | .anyOf | .anyOfBranch => True
  | .engine => False

/-- A violation stands at a part of a value that itself stands at a place. -/
def Violation.StandsIn (violation : Violation) (place : Locator) (v : Json) : Prop :=
  ∃ steps w, v.at? steps = some w ∧ violation.place = ⟨place.steps ++ steps⟩ ∧ violation.Fits w

/-- All violations of a report stand at parts of a value. -/
def Report.StandsIn (r : Report) (place : Locator) (v : Json) : Prop :=
  ∀ violation ∈ r, violation.StandsIn place v

namespace Report

/-- An empty report stands in every value. -/
theorem standsIn_nil : StandsIn [] place v := fun _ hmem => nomatch hmem

/-- Reports put together stand in a value when both do. -/
theorem StandsIn.append (hr : r.StandsIn place v) (hq : q.StandsIn place v) :
    StandsIn (r ++ q) place v :=
  fun violation hmem => (List.mem_append.mp hmem).elim (hr violation) (hq violation)

/-- A violation at the place of the value itself. -/
theorem standsIn_singleton {kind : ViolationKind} {message : String}
    (h : Violation.Fits ⟨place, kind, message⟩ v) :
    StandsIn [⟨place, kind, message⟩] place v := by
  intro violation hmem
  cases List.mem_singleton.mp hmem
  exact ⟨[], v, rfl, by rw [List.append_nil], h⟩

/-- What stands in a part of a value stands in the value. -/
theorem StandsIn.up {step : Step} (h : v.part? step = some w)
    (hr : r.StandsIn (place.push step) w) : r.StandsIn place v := by
  intro violation hmem
  obtain ⟨steps, u, hu, hplace, hfits⟩ := hr violation hmem
  refine ⟨step :: steps, u, (Json.at?_cons h steps).trans hu, ?_, hfits⟩
  rw [hplace, Locator.push, List.append_assoc, List.singleton_append]

end Report

namespace Structural

variable {files : Texts} {settings : Settings} {visit : Visit} {schema : Members}
  {context : Context} {chain : Chain}

/-! ## Keywords that speak of the value itself -/

/-- A numeric keyword finds a violation at the place of the value. -/
theorem boundViolation_standsIn {keyword : String} {kind : ViolationKind}
    {broken : Binary64 → Bool} {message : String → String}
    (h : ∀ text, Violation.Fits ⟨place, kind, text⟩ v) :
    (boundViolation schema keyword place kind broken message).StandsIn place v := by
  unfold boundViolation
  split
  · split
    · exact Report.standsIn_singleton (h _)
    · exact Report.standsIn_nil
  · exact Report.standsIn_nil

/-- The keywords for strings speak of a string. -/
theorem checkString_standsIn {text : String} {report : Report}
    (h : checkString text schema place = .ok report) : report.StandsIn place (.str text) := by
  have hshort : (boundViolation schema "minLength" place .minLength
      ((Binary64.ofNat text.length).lt ·) (fun limit => "string length < " ++ limit)).StandsIn place
      (.str text) := boundViolation_standsIn fun _ => ⟨text, rfl⟩
  unfold checkString at h
  dsimp only at h
  split at h
  · split at h
    · cases h
      exact hshort
    · split at h
      · cases h
      · cases h
        exact hshort
      · cases h
        exact hshort.append (Report.standsIn_singleton ⟨text, rfl⟩)
  · cases h
    exact hshort

/-- The keywords for numbers speak of a number. -/
theorem checkNumber_standsIn (n : Number) :
    (checkNumber n schema place).StandsIn place (.num n) := by
  refine Report.StandsIn.append ?_ ?_
  · exact boundViolation_standsIn fun _ => ⟨n, rfl⟩
  · exact boundViolation_standsIn fun _ => ⟨n, rfl⟩

/-- The keywords for the size of an array speak of an array. -/
theorem checkSize_standsIn (items : List Json) :
    (checkSize items schema place).StandsIn place (.arr items) := by
  refine Report.StandsIn.append ?_ ?_
  · exact boundViolation_standsIn fun _ => ⟨items, rfl⟩
  · exact boundViolation_standsIn fun _ => ⟨items, rfl⟩

/-- The keyword `required` speaks of an object without the member it names. -/
theorem checkRequired_standsIn (members : Members) :
    (checkRequired members schema place).StandsIn place (.obj members) := by
  unfold checkRequired
  split
  · intro violation hmem
    obtain ⟨name, -, hname⟩ := List.mem_filterMap.mp hmem
    split at hname
    · cases hname
    · next habsent =>
      cases hname
      exact ⟨[], _, rfl, by rw [List.append_nil], members, name, rfl, habsent, rfl⟩
  · exact Report.standsIn_nil

/-- The keyword `enum` speaks of any value. -/
theorem checkEnum_standsIn : (checkEnum v schema place).StandsIn place v := by
  unfold checkEnum
  split
  · split
    · exact Report.standsIn_nil
    · exact Report.standsIn_singleton trivial
  · exact Report.standsIn_nil

/-! ## Alternatives -/

/-- Marking the violations of alternatives does not move them. -/
theorem branchReports_standsIn {reports : List Report}
    (h : ∀ report ∈ reports, report.StandsIn place v) (i : Nat) :
    (branchReports i reports).StandsIn place v := by
  induction reports generalizing i with
  | nil => exact Report.standsIn_nil
  | cons report rest ih =>
    obtain ⟨hreport, hrest⟩ := List.forall_mem_cons.mp h
    refine Report.StandsIn.append (fun violation hmem => ?_) (ih hrest (i + 1))
    obtain ⟨found, hfound, rfl⟩ := List.mem_map.mp hmem
    obtain ⟨steps, w, hw, hplace, -⟩ := hreport found hfound
    exact ⟨steps, w, hw, hplace, trivial⟩

/-- The report on alternatives stands where the reports of the alternatives do. -/
theorem anyOfReport_standsIn {verbose : Bool} {reports : Option (List Report)}
    (h : ∀ found, reports = some found → ∀ report ∈ found, report.StandsIn place v) :
    (anyOfReport verbose place reports).StandsIn place v := by
  unfold anyOfReport
  split
  · exact Report.standsIn_nil
  · exact Report.standsIn_nil
  · next found _ =>
    have hbranches := branchReports_standsIn (h found rfl) 0
    refine Report.StandsIn.append (r := [_]) (Report.standsIn_singleton trivial) ?_
    cases verbose with
    | false => exact Report.standsIn_nil
    | true => exact hbranches

/-- What the checks of alternatives yield holds of the reports that are collected. -/
theorem failures_yields {P : Report → Prop} {check : Json → Loading Report}
    (h : ∀ a, Yields (check a) P) (alternatives : List Json) :
    Yields (failures check alternatives) fun reports =>
      ∀ found, reports = some found → ∀ report ∈ found, P report := by
  induction alternatives with
  | nil =>
    refine .pure fun found he => ?_
    cases he
    exact fun _ hmem => nomatch hmem
  | cons a rest ih =>
    refine (h a).bind fun report hreport => ?_
    split
    · exact .pure fun found he => nomatch he
    · refine ih.bind fun others hothers => .pure fun found he => ?_
      obtain ⟨reports, rfl, rfl⟩ := Option.map_eq_some_iff.mp he
      exact List.forall_mem_cons.mpr ⟨hreport, hothers reports rfl⟩

/-! ## Items and members -/

/-- The reports on items stand in an array when each of them does. -/
theorem eachItem_standsIn {check : Nat → Json → Loading Report} {items : List Json} {i : Nat}
    (h : ∀ j w, items[j]? = some w → Yields (check (i + j) w) (·.StandsIn place v)) :
    Yields (eachItem check i items) (·.StandsIn place v) := by
  induction items generalizing i with
  | nil => exact .pure Report.standsIn_nil
  | cons item rest ih =>
    have hrest : Yields (eachItem check (i + 1) rest) (·.StandsIn place v) := ih fun j w hw => by
      have hnext := h (j + 1) w (by rw [List.getElem?_cons_succ, hw])
      rwa [Nat.add_comm j, ← Nat.add_assoc] at hnext
    exact (h 0 item rfl).bind fun report hreport =>
      hrest.bind fun others hothers => .pure (hreport.append hothers)

/-- The reports on members stand in an object when each of them does. -/
theorem eachMember_standsIn {check : String → Json → Loading Report} {members : Members}
    (h : ∀ p ∈ members, Yields (check p.1 p.2) (·.StandsIn place v)) :
    Yields (eachMember check members) (·.StandsIn place v) := by
  induction members with
  | nil => exact .pure Report.standsIn_nil
  | cons p rest ih =>
    have hrest := ih fun q hq => h q (List.mem_cons_of_mem _ hq)
    exact (h p List.mem_cons_self).bind fun report hreport =>
      hrest.bind fun others hothers => .pure (hreport.append hothers)

/-! ## The whole walk -/

/-- How a walk goes on reports what stands in the instance. -/
def VisitStands (visit : Visit) : Prop :=
  ∀ v node context place chain, v.Distinct →
    Yields (visit v node context place chain) (·.StandsIn place v)

/-- The keywords for arrays speak of the array and its items. -/
theorem checkArray_standsIn (h : VisitStands visit) {items : List Json}
    (hdistinct : Json.Distinct (.arr items)) :
    Yields (checkArray visit items schema context place chain) (·.StandsIn place (.arr items)) := by
  unfold checkArray
  dsimp only
  split
  · next itemSchema _ =>
    refine Yields.bind (eachItem_standsIn fun j w hw s report hreport => ?_) fun _ hreports =>
      .pure ((checkSize_standsIn items).append hreports)
    rw [Nat.zero_add] at hreport
    have hpart : (Json.arr items).part? (.index j) = some w := hw
    have hinside := hdistinct.inside (.item .here (List.mem_of_getElem? hw))
    exact Report.StandsIn.up hpart (h w _ _ _ _ hinside hreport)
  · exact .pure (checkSize_standsIn items)

/-- What is found about a member speaks of its object or stands in the member. -/
theorem checkMember_standsIn (h : VisitStands visit) {members : Members}
    (hdistinct : Json.Distinct (.obj members)) {name : String} {w : Json}
    (hmem : (name, w) ∈ members) :
    Yields (checkMember visit schema context place chain name w)
      (·.StandsIn place (.obj members)) := by
  have hpart : (Json.obj members).part? (.name name) = some w :=
    Json.lookup_of_mem (hdistinct members .here) hmem
  unfold checkMember
  split
  · intro s report hreport
    have hinside := hdistinct.inside (.member .here hmem)
    exact Report.StandsIn.up hpart (h w _ _ _ _ hinside hreport)
  · refine .pure ?_
    split
    · exact Report.standsIn_singleton ⟨members, name, w, rfl, hpart, rfl⟩
    · exact Report.standsIn_nil

/-- The keywords for objects speak of the object and its members. -/
theorem checkObject_standsIn (h : VisitStands visit) {members : Members}
    (hdistinct : Json.Distinct (.obj members)) :
    Yields (checkObject visit members schema context place chain)
      (·.StandsIn place (.obj members)) := by
  have heach : Yields (eachMember (checkMember visit schema context place chain) members)
      (·.StandsIn place (.obj members)) :=
    eachMember_standsIn fun p hp => checkMember_standsIn h hdistinct hp
  exact heach.bind fun _ hreports => .pure ((checkRequired_standsIn members).append hreports)

/-- The keywords that depend on the kind of value speak of what is inside it. -/
theorem checkByKind_standsIn (h : VisitStands visit) (hdistinct : v.Distinct) :
    Yields (checkByKind visit v schema context place chain) (·.StandsIn place v) := by
  cases v with
  | str text => exact .lift fun _ hreport => checkString_standsIn hreport
  | num n => exact .pure (checkNumber_standsIn n)
  | arr items => exact checkArray_standsIn h hdistinct
  | obj members => exact checkObject_standsIn h hdistinct
  | null => exact .pure Report.standsIn_nil
  | bool b => exact .pure Report.standsIn_nil

/-- What is found at a node stands in the instance when what is found below does: a reference and
alternatives keep the instance and its place. -/
theorem checkNode_standsIn (h : VisitStands visit) (hdistinct : v.Distinct) :
    Yields (checkNode files settings visit v schema context place chain) (·.StandsIn place v) := by
  have hreference : Yields (checkReference files visit v schema context place chain)
      (·.StandsIn place v) :=
    follow_yields Report.standsIn_nil fun _ _ _ => h _ _ _ _ _ hdistinct
  have hanyOf : Yields (checkAnyOf settings visit v schema context place chain)
      (·.StandsIn place v) := by
    unfold checkAnyOf
    split
    · exact (failures_yields (fun _ => h _ _ _ _ _ hdistinct) _).bind fun _ hfound =>
        .pure (anyOfReport_standsIn hfound)
    · exact .pure Report.standsIn_nil
  refine hreference.bind fun behind hbehind => hanyOf.bind fun alternatives halternatives => ?_
  have hbefore := hbehind.append halternatives
  split
  · exact .pure (hbefore.append (Report.standsIn_singleton trivial))
  · exact (checkByKind_standsIn h hdistinct).bind fun rest hrest =>
      .pure ((hbefore.append checkEnum_standsIn).append hrest)

/-- Every walk reports what stands in the instance. -/
theorem walk_standsIn (files : Texts) (settings : Settings) :
    ∀ levels, VisitStands (walk files settings levels)
  | 0 => fun _ _ _ _ _ _ _ _ h => nomatch h
  | levels + 1 => by
    intro v node context place chain hdistinct
    unfold walk
    split
    · exact checkNode_standsIn (walk_standsIn files settings levels) hdistinct
    · exact .pure Report.standsIn_nil

/-- Every violation that validation reports, in the compact mode or the verbose one, stands at a
part of the instance: its place is that of the instance followed by steps that exist in the
instance, and they lead to a value of the kind that its keyword is about, without the member that it
misses or with the one that it refuses. -/
theorem validateNode_standsIn (files : Texts) (s : Store) (settings : Settings) (v node : Json)
    (context : Context) (place : Locator) (report : Report) (hdistinct : v.Distinct)
    (h : (validateNode files settings v node context place).outcome s = .ok report) :
    ∀ violation ∈ report, ∃ steps w, v.at? steps = some w ∧
      violation.place = ⟨place.steps ++ steps⟩ ∧
      violation.place.render = place.render ++ String.join (steps.map Step.render) ∧
      violation.Fits w := by
  intro violation hmem
  obtain ⟨steps, w, hw, hplace, hfits⟩ :=
    walk_standsIn files settings _ v node context place _ hdistinct h violation hmem
  exact ⟨steps, w, hw, hplace, by rw [hplace, Locator.render_append], hfits⟩

/-- A list without a head, whose tail ends in a list without a head. -/
def headlessList : Json :=
  .obj [("tail", .obj [("head", .null), ("tail", .obj [("tail", .null)])])]

/-- The names of the headless list are distinct. -/
theorem distinct_headlessList : headlessList.Distinct := by
  have hnull : Json.Distinct .null := Json.distinct_scalar trivial
  have hlast : Json.Distinct (.obj [("tail", .null)]) :=
    Json.distinct_obj ⟨by simp, List.forall_mem_singleton.mpr hnull⟩
  have htail : Json.Distinct (.obj [("head", .null), ("tail", .obj [("tail", .null)])]) :=
    Json.distinct_obj ⟨by simp, List.forall_mem_cons.mpr
      ⟨hnull, List.forall_mem_singleton.mpr hlast⟩⟩
  exact Json.distinct_obj ⟨by simp, List.forall_mem_singleton.mpr htail⟩

set_option maxRecDepth 10000 in
/-- What the verbose mode reports of the headless list, also behind references and below
alternatives of alternatives, stands in the list. -/
theorem headlessList_stands :
    headlessList.Distinct ∧
      ∃ report, (validateNode (FileTree.empty .root) ⟨4, 20, true⟩ headlessList listSchema.root
          (.ofDocument listSchema) ⟨[.name "list"]⟩).outcome ⟨[listSchema]⟩ = .ok report ∧
        report.map (·.place.render) = ["$.list", "$.list.tail", "$.list.tail", "$.list.tail.tail",
          "$.list.tail.tail", "$.list.tail.tail"] ∧
        ∀ violation ∈ report, ∃ steps w, headlessList.at? steps = some w ∧
          violation.place = ⟨[.name "list"] ++ steps⟩ ∧
          violation.place.render = "$.list" ++ String.join (steps.map Step.render) ∧
          violation.Fits w := by
  obtain ⟨report, hrun, hplaces⟩ : ∃ report,
      (validateNode (FileTree.empty .root) ⟨4, 20, true⟩ headlessList listSchema.root
        (.ofDocument listSchema) ⟨[.name "list"]⟩).outcome ⟨[listSchema]⟩ = .ok report ∧
      report.map (·.place.render) = ["$.list", "$.list.tail", "$.list.tail", "$.list.tail.tail",
        "$.list.tail.tail", "$.list.tail.tail"] := ⟨_, rfl, by rfl⟩
  exact ⟨distinct_headlessList, report, hrun, hplaces,
    validateNode_standsIn _ _ _ _ _ _ _ report distinct_headlessList hrun⟩

end Structural

end LinkedSchema
