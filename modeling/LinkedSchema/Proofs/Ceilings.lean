import LinkedSchema.Proofs.Depth
import LinkedSchema.Proofs.Tracking

/-!
# Ceilings only cut off

A walk with higher ceilings has the same outcome as one with lower ceilings and leaves the same
store, unless the lower ceilings are hit. The two walks run side by side on one store, and their
chains hold the same references; only the room that is left differs (`Raised`). So a chain that is
entered on the lower side is entered on the other one, a reference that leads back leads back on
both, and the one failure that can be met on the lower side alone is that of a ceiling, which is
spared. For the check of the reference graph this leaves the levels, which never run out.
-/

namespace LinkedSchema

open Loading

variable {files : Texts} {limit limit' : Nat}

/-- A failure at one of the two ceilings. -/
def SchemaError.IsCeiling : SchemaError → Prop
  | referenceChainTooLong .. | depthExceeded .. => True
  | _ => False

/-- A chain with the same references and at least as much room. -/
structure Chain.Raised (chain chain' : Chain) : Prop where
  /-- The references are the same. -/
  visited : chain'.visited = chain.visited
  /-- The limit is no smaller. -/
  limit : chain.limit ≤ chain'.limit

/-- Chains with higher limits stay so, unless the lower limit is hit. -/
theorem chainsAlike_raised : ChainsAlike SchemaError.IsCeiling Chain.Raised where
  fresh h := ⟨rfl, h.limit⟩
  enter {chain chain'} i text h := by
    obtain ⟨hvisited, hlimit⟩ := h
    unfold Chain.enter
    rw [hvisited]
    by_cases hmem : i ∈ chain.visited
    · rw [if_pos hmem, if_pos hmem]
      exact .inr (.inl ⟨_, rfl, rfl⟩)
    · rw [if_neg hmem, if_neg hmem]
      by_cases hfull : chain.limit ≤ chain.visited.length
      · rw [if_pos hfull]
        exact .inl ⟨.referenceChainTooLong chain.limit text, trivial, rfl⟩
      · have hroom : ¬chain'.limit ≤ chain.visited.length := by omega
        rw [if_neg hfull, if_neg hroom]
        exact .inr (.inr ⟨_, _, rfl, rfl, rfl, hlimit⟩)

/-- A walk tracks one with higher ceilings. -/
theorem Structural.walk_tracks_raised (settings settings' : Settings) {levels levels' : Nat}
    (hverbose : settings'.verboseAnyOf = settings.verboseAnyOf) (hlevels : levels ≤ levels') :
    VisitTracks Eq SchemaError.IsCeiling Chain.Raised (walk files settings levels)
      (walk files settings' levels') :=
  walk_tracks (fun _ _ => .refl _) hverbose chainsAlike_raised hlevels (.inl fun _ => trivial)

/-- With a higher limit the check has at least as many levels. -/
theorem ReferenceGraph.levels_mono (weight : Nat) (h : limit ≤ limit') :
    ReferenceGraph.levels weight limit ≤ ReferenceGraph.levels weight limit' :=
  Nat.succ_le_succ (Nat.mul_le_mul_left _ (Nat.mul_le_mul_right _ (Nat.succ_le_succ h)))

/-- The check tracks one with a higher limit. -/
theorem ReferenceGraph.check_tracks_raised (schema : Document) (h : limit ≤ limit') :
    Tracks Eq SchemaError.IsCeiling (check files schema limit) (check files schema limit') := by
  have hstart : Chain.Raised (.start limit) (.start limit') := ⟨rfl, h⟩
  rintro s t rfl
  exact check_tracks_of_le (fun _ _ => .refl _) chainsAlike_raised hstart (fun _ _ => trivial) rfl
    (levels_mono _ h)

/-- What tracks on the same store does the same, if it does not fail with a spared error. -/
theorem runOn_of_tracks {α : Type} {spared : SchemaError → Prop} {x y : Loading α} {s : Store}
    (h : Tracks Eq spared x y) (hno : ∀ e, x.outcome s = .error e → ¬spared e) :
    y.runOn s = x.runOn s := by
  rcases h (rfl : s = s) with ⟨e, he, hfails⟩ | ⟨houtcome, hafter⟩
  · exact absurd he (hno e hfails)
  · rw [runOn_eq, runOn_eq, houtcome, hafter]

/-- An answer that is not the failure of a ceiling stays the same when the ceilings are raised, be
it a report or another failure, and so does the store. The check of the reference graph has only the
ceiling of its chains. -/
theorem ceilings_only_cut_off (files : FileTree) (s : Store) {maxRefChain maxRefChain' : Nat}
    (hchain : maxRefChain ≤ maxRefChain') :
    (∀ v node context place verbose maxDepth maxDepth', maxDepth ≤ maxDepth' →
      (∀ e, (Structural.validateNode files ⟨maxRefChain, maxDepth, verbose⟩ v node context
        place).outcome s = .error e → ¬e.IsCeiling) →
      (Structural.validateNode files ⟨maxRefChain', maxDepth', verbose⟩ v node context
          place).runOn s =
        (Structural.validateNode files ⟨maxRefChain, maxDepth, verbose⟩ v node context
          place).runOn s) ∧
    ∀ schema : Document, schema.location.Normal →
      (∀ n reference, (ReferenceGraph.check files schema maxRefChain).outcome s ≠
        .error (.referenceChainTooLong n reference)) →
      (ReferenceGraph.check files schema maxRefChain').runOn s =
        (ReferenceGraph.check files schema maxRefChain).runOn s := by
  constructor
  · intro v node context place verbose maxDepth maxDepth' hdepth hno
    have hstart : Chain.Raised (.start maxRefChain) (.start maxRefChain') := ⟨rfl, hchain⟩
    have hlevels := Nat.succ_le_succ hdepth
    exact runOn_of_tracks (Structural.walk_tracks_raised ⟨maxRefChain, maxDepth, verbose⟩
      ⟨maxRefChain', maxDepth', verbose⟩ rfl hlevels hstart) hno
  · intro schema hnormal hno
    refine runOn_of_tracks (ReferenceGraph.check_tracks_raised schema hchain) fun e he hceiling => ?_
    -- Of the two ceilings one is excluded by assumption, and the other is none of the check.
    cases e with
    | referenceChainTooLong n reference => exact hno n reference he
    | depthExceeded n place =>
      exact ReferenceGraph.check_ne_depthExceeded files.listed s hnormal maxRefChain n place he
    | _ => exact hceiling

set_option maxRecDepth 10000 in
/-- Validation and the check find the cycle of documents that refer to each other under low
ceilings, and so they do under high ones. -/
theorem cycle_under_raised_ceilings :
    (Structural.validateNode (.empty .root) ⟨3, 15, false⟩ .null Structural.henSchema.root
        (.ofDocument Structural.henSchema) .root).outcome
          ⟨[Structural.henSchema, Structural.eggSchema]⟩ =
      .error (.cyclicReference [⟨Structural.eggSchema.location, ""⟩,
        ⟨Structural.henSchema.location, ""⟩, ⟨Structural.eggSchema.location, ""⟩]) ∧
    (Structural.validateNode (.empty .root) ⟨64, 512, false⟩ .null Structural.henSchema.root
        (.ofDocument Structural.henSchema) .root).outcome
          ⟨[Structural.henSchema, Structural.eggSchema]⟩ =
      .error (.cyclicReference [⟨Structural.eggSchema.location, ""⟩,
        ⟨Structural.henSchema.location, ""⟩, ⟨Structural.eggSchema.location, ""⟩]) ∧
    (ReferenceGraph.check (.empty .root) Structural.henSchema 3).outcome
        ⟨[Structural.henSchema, Structural.eggSchema]⟩ =
      .error (.cyclicReference [⟨Structural.eggSchema.location, ""⟩,
        ⟨Structural.henSchema.location, ""⟩, ⟨Structural.eggSchema.location, ""⟩]) ∧
    (ReferenceGraph.check (.empty .root) Structural.henSchema 64).outcome
        ⟨[Structural.henSchema, Structural.eggSchema]⟩ =
      .error (.cyclicReference [⟨Structural.eggSchema.location, ""⟩,
        ⟨Structural.henSchema.location, ""⟩, ⟨Structural.eggSchema.location, ""⟩]) := by
  have hvalidate : (Structural.validateNode (.empty .root) ⟨3, 15, false⟩ .null
      Structural.henSchema.root (.ofDocument Structural.henSchema) .root).outcome
        ⟨[Structural.henSchema, Structural.eggSchema]⟩ =
      .error (.cyclicReference [⟨Structural.eggSchema.location, ""⟩,
        ⟨Structural.henSchema.location, ""⟩, ⟨Structural.eggSchema.location, ""⟩]) := by rfl
  have hcheck : (ReferenceGraph.check (.empty .root) Structural.henSchema 3).outcome
      ⟨[Structural.henSchema, Structural.eggSchema]⟩ =
      .error (.cyclicReference [⟨Structural.eggSchema.location, ""⟩,
        ⟨Structural.henSchema.location, ""⟩, ⟨Structural.eggSchema.location, ""⟩]) := by rfl
  obtain ⟨hwalk, hgraph⟩ := ceilings_only_cut_off (.empty .root)
    ⟨[Structural.henSchema, Structural.eggSchema]⟩ (by decide : 3 ≤ 64)
  have hvalidate' := hwalk .null Structural.henSchema.root (.ofDocument Structural.henSchema) .root
    false 15 512 (by decide) fun e he => by
      cases hvalidate.symm.trans he
      exact id
  have hcheck' := hgraph Structural.henSchema (by decide) fun n reference he => by
    cases hcheck.symm.trans he
  exact ⟨hvalidate, (congrArg Prod.fst hvalidate').trans hvalidate, hcheck,
    (congrArg Prod.fst hcheck').trans hcheck⟩

end LinkedSchema
